import Mathlib.Data.List.Basic

namespace JsonString

section Escape

def hexWord (code : Nat) : List Char :=
  ['\\', 'u', (code / 4096 % 16).digitChar, (code / 256 % 16).digitChar, (code / 16 % 16).digitChar,
    (code % 16).digitChar]

/-- One character of a JSON string, as the compact formatter writes it. -/
def escape (character : Char) : List Char :=
  if character = '"' then ['\\', '"']
  else if character = '\\' then ['\\', '\\']
  else if character.toNat = 0x08 then ['\\', 'b']
  else if character.toNat = 0x09 then ['\\', 't']
  else if character.toNat = 0x0A then ['\\', 'n']
  else if character.toNat = 0x0C then ['\\', 'f']
  else if character.toNat = 0x0D then ['\\', 'r']
  else if character.toNat < 0x20 then hexWord character.toNat
  else [character]

end Escape

section Read

def hexValue (digit : Char) : Option Nat :=
  let code := digit.toNat
  if 0x30 ≤ code ∧ code ≤ 0x39 then some (code - 0x30)
  else if 0x61 ≤ code ∧ code ≤ 0x66 then some (code - 0x57)
  else if 0x41 ≤ code ∧ code ≤ 0x46 then some (code - 0x37)
  else none

def readHex : List Char → Option (Nat × List Char)
  | a :: b :: c :: d :: rest => do
    let a ← hexValue a
    let b ← hexValue b
    let c ← hexValue c
    let d ← hexValue d
    some (a * 4096 + b * 256 + c * 16 + d, rest)
  | _ => none

/-- The code point of a `\u` escape; a leading surrogate needs its trailing one. -/
def readUnicode (text : List Char) : Option (Char × List Char) := do
  let (code, rest) ← readHex text
  if 0xD800 ≤ code ∧ code ≤ 0xDBFF then
    match rest with
    | '\\' :: 'u' :: more => do
      let (low, rest) ← readHex more
      if 0xDC00 ≤ low ∧ low ≤ 0xDFFF then
        some (Char.ofNat (0x10000 + (code - 0xD800) * 0x400 + (low - 0xDC00)), rest)
      else none
    | _ => none
  else if 0xDC00 ≤ code ∧ code ≤ 0xDFFF then none
  else some (Char.ofNat code, rest)

/-- What follows a backslash. -/
def readEscape : List Char → Option (Char × List Char)
  | [] => none
  | letter :: rest =>
    if letter = '"' ∨ letter = '\\' ∨ letter = '/' then some (letter, rest)
    else if letter = 'b' then some (Char.ofNat 0x08, rest)
    else if letter = 't' then some (Char.ofNat 0x09, rest)
    else if letter = 'n' then some (Char.ofNat 0x0A, rest)
    else if letter = 'f' then some (Char.ofNat 0x0C, rest)
    else if letter = 'r' then some (Char.ofNat 0x0D, rest)
    else if letter = 'u' then readUnicode rest
    else none

/-- The rest of a string past its opening quote: its characters and what follows the closing quote;
each character takes one unit of fuel. -/
def readString : Nat → List Char → Option (List Char × List Char)
  | 0, _ => none
  | _ + 1, [] => none
  | fuel + 1, first :: rest =>
    if first = '"' then some ([], rest)
    else if first = '\\' then do
      let (character, rest) ← readEscape rest
      let (text, rest) ← readString fuel rest
      some (character :: text, rest)
    else if first.toNat < 0x20 then none
    else do
      let (text, rest) ← readString fuel rest
      some (first :: text, rest)

end Read

section RoundTrip

/-- A word that is read as one character, whatever follows it. -/
def Reads (word : List Char) (character : Char) : Prop :=
  ∀ fuel rest, readString (fuel + 1) (word ++ rest) =
    (readString fuel rest).map fun (text, rest) => (character :: text, rest)

theorem reads_self {character : Char} (quote : character ≠ '"') (slash : character ≠ '\\')
    (visible : 0x20 ≤ character.toNat) : Reads [character] character := by
  intro fuel rest
  have hc : ¬ character.toNat < 0x20 := by omega
  simp only [List.cons_append, List.nil_append, readString, if_neg quote, if_neg slash, if_neg hc]
  cases readString fuel rest <;> rfl

theorem reads_escape (word : List Char) {character : Char}
    (h : ∀ rest, readEscape (word ++ rest) = some (character, rest)) :
    Reads ('\\' :: word) character := by
  intro fuel rest
  have hq : ¬ ('\\' : Char) = '"' := by decide
  simp only [List.cons_append, readString, if_neg hq, if_true, h, Option.bind_eq_bind,
    Option.bind_some]
  cases readString fuel rest <;> rfl

theorem hexValue_digitChar : ∀ digit < 16, hexValue digit.digitChar = some digit := by
  decide

theorem readHex_word (code : Nat) (bound : code < 65536) (rest : List Char) :
    readHex ((hexWord code).drop 2 ++ rest) = some (code, rest) := by
  have hd (n : Nat) : hexValue (n % 16).digitChar = some (n % 16) :=
    hexValue_digitChar (n % 16) (Nat.mod_lt n (by omega))
  have hsum : code / 4096 % 16 * 4096 + code / 256 % 16 * 256 + code / 16 % 16 * 16 + code % 16 =
      code := by omega
  simp only [hexWord, List.drop_succ_cons, List.drop_zero, List.cons_append, List.nil_append,
    readHex, hd, Option.bind_eq_bind, Option.bind_some, hsum]

theorem reads_hexWord {character : Char} (basic : character.toNat < 0xD800) :
    Reads (hexWord character.toNat) character := by
  refine reads_escape ((hexWord character.toNat).drop 1) fun rest => ?_
  have hword : (hexWord character.toNat).drop 1 ++ rest =
      'u' :: ((hexWord character.toNat).drop 2 ++ rest) := rfl
  have high : ¬ (0xD800 ≤ character.toNat ∧ character.toNat ≤ 0xDBFF) := by omega
  have low : ¬ (0xDC00 ≤ character.toNat ∧ character.toNat ≤ 0xDFFF) := by omega
  have hread : readUnicode ((hexWord character.toNat).drop 2 ++ rest) = some (character, rest) := by
    unfold readUnicode
    rw [readHex_word character.toNat (by omega)]
    simp only [Option.bind_eq_bind, Option.bind_some, if_neg high, if_neg low, Char.ofNat_toNat]
  rw [hword]
  simp only [readEscape]
  simpa using hread

theorem reads_of_toNat {character : Char} {word : List Char} {code : Nat}
    (same : character.toNat = code) (h : Reads word (Char.ofNat code)) : Reads word character := by
  rwa [← same, Char.ofNat_toNat] at h

/-- Every character reads back from its escape. -/
theorem reads_escape_self (character : Char) : Reads (escape character) character := by
  unfold escape
  split_ifs with hq hs hb ht hn hf hr hc
  · exact hq ▸ reads_escape ['"'] fun rest => rfl
  · exact hs ▸ reads_escape ['\\'] fun rest => rfl
  · exact reads_of_toNat hb (reads_escape ['b'] fun rest => rfl)
  · exact reads_of_toNat ht (reads_escape ['t'] fun rest => rfl)
  · exact reads_of_toNat hn (reads_escape ['n'] fun rest => rfl)
  · exact reads_of_toNat hf (reads_escape ['f'] fun rest => rfl)
  · exact reads_of_toNat hr (reads_escape ['r'] fun rest => rfl)
  · exact reads_hexWord (by omega)
  · exact reads_self hq hs (by omega)

/-- A string written by an escape that reads back is read as it was, up to its closing quote. -/
theorem readString_flatMap {code : Char → List Char} (h : ∀ c, Reads (code c) c) (text : List Char)
    (rest : List Char) {fuel : Nat} (enough : text.length < fuel) :
    readString fuel (text.flatMap code ++ '"' :: rest) = some (text, rest) := by
  induction text generalizing fuel with
  | nil =>
    obtain ⟨fuel, rfl⟩ := Nat.exists_eq_succ_of_ne_zero (Nat.ne_of_gt enough)
    rfl
  | cons c text ih =>
    obtain ⟨fuel, rfl⟩ := Nat.exists_eq_succ_of_ne_zero (Nat.ne_of_gt (Nat.zero_lt_of_lt enough))
    have hlen : text.length < fuel := Nat.lt_of_succ_lt_succ enough
    rw [List.flatMap_cons, List.append_assoc, h c fuel, ih hlen]
    rfl

end RoundTrip

end JsonString
