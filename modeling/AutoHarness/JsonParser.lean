import AutoHarness.JsonString
import AutoHarness.Serde
import AutoHarness.SortedMap
import Mathlib.Data.List.TakeWhile
import Mathlib.Data.String.Basic

namespace AutoHarness

open JsonString (readString readString_flatMap Reads reads_self)

section Parser

def isJsonSpace (character : Char) : Bool :=
  character == ' ' || character == '\n' || character == '\t' || character == '\r'

def skipSpace (text : List Char) : List Char :=
  text.dropWhile isJsonSpace

def isNumberChar (character : Char) : Bool :=
  character.isDigit || ['-', '+', '.', 'e', 'E'].contains character

/-- Plain digits of 64 bits are read here; what any other number token denotes is a parameter. -/
def numberOf (otherNumber : List Char → Option JsonNumber) (token : List Char) : Option JsonNumber :=
  if token ≠ [] ∧ token.all Char.isDigit = true ∧ (token.head? = some '0' → token = ['0']) ∧
      Nat.ofDigitChars 10 token 0 < 18446744073709551616 then
    some (.posInt (UInt64.ofNat (Nat.ofDigitChars 10 token 0)))
  else otherNumber token

def literal (word : List Char) (value : JsonValue) (text : List Char) :
    Option (JsonValue × List Char) :=
  if word.isPrefixOf text then some (value, text.drop word.length) else none

variable (otherNumber : List Char → Option JsonNumber)

mutual

/-- One value and the text behind it; `depth` is what is left of the nesting limit. -/
def readValue : (fuel depth : Nat) → List Char → Option (JsonValue × List Char)
  | 0, _, _ => none
  | fuel + 1, depth, text =>
    match skipSpace text with
    | [] => none
    | first :: rest =>
      if first = '"' then
        (readString (rest.length + 1) rest).map fun (value, rest) => (.string (String.ofList value), rest)
      else if first = '[' then
        if depth ≤ 1 then none
        else (readItems fuel (depth - 1) true rest).map fun (items, rest) => (.array items, rest)
      else if first = '\x7b' then
        if depth ≤ 1 then none
        else (readFields fuel (depth - 1) true rest).map fun (fields, rest) =>
          (.object (fields.foldl (fun entries field => SortedMap.insertEntry field.1 field.2 entries) []),
            rest)
      else if first = 'n' then literal "null".toList .null (first :: rest)
      else if first = 't' then literal "true".toList (.bool true) (first :: rest)
      else if first = 'f' then literal "false".toList (.bool false) (first :: rest)
      else
        (numberOf otherNumber ((first :: rest).takeWhile isNumberChar)).map fun number =>
          (.number number, (first :: rest).dropWhile isNumberChar)

/-- The items of an array past its bracket or past a comma. -/
def readItems : (fuel depth : Nat) → (opening : Bool) → List Char → Option (List JsonValue × List Char)
  | 0, _, _, _ => none
  | fuel + 1, depth, opening, text =>
    if (skipSpace text).head? = some ']' then
      if opening then some ([], (skipSpace text).drop 1) else none
    else do
      let (item, rest) ← readValue fuel depth text
      match skipSpace rest with
      | ',' :: rest => (readItems fuel depth false rest).map fun (items, rest) => (item :: items, rest)
      | ']' :: rest => some ([item], rest)
      | _ => none

/-- The fields of an object past its brace or past a comma. -/
def readFields : (fuel depth : Nat) → (opening : Bool) → List Char →
    Option (List (String × JsonValue) × List Char)
  | 0, _, _, _ => none
  | fuel + 1, depth, opening, text =>
    match skipSpace text with
    | '\x7d' :: rest => if opening then some ([], rest) else none
    | '"' :: rest => do
      let (key, rest) ← readString (rest.length + 1) rest
      match skipSpace rest with
      | ':' :: rest => do
        let (value, rest) ← readValue fuel depth rest
        match skipSpace rest with
        | ',' :: rest =>
          (readFields fuel depth false rest).map fun (fields, rest) =>
            ((String.ofList key, value) :: fields, rest)
        | '\x7d' :: rest => some ([(String.ofList key, value)], rest)
        | _ => none
      | _ => none
    | _ => none

end

/-- `serde_json::from_str`: one value, then only white space. -/
def parseJson (text : String) : Option JsonValue :=
  match readValue otherNumber (2 * text.toList.length + 2) 128 text.toList with
  | some (value, rest) => if skipSpace rest = [] then some value else none
  | none => none

end Parser

section Records

variable {otherNumber : List Char → Option JsonNumber}

theorem skipSpace_cons {character : Char} (h : isJsonSpace character = false) (rest : List Char) :
    skipSpace (character :: rest) = character :: rest := by
  rw [skipSpace, List.dropWhile_cons_of_neg (by simp [h])]

/-- A compact text of a value, before the comma or the brace that ends a field. -/
def Renders (otherNumber : List Char → Option JsonNumber) (text : List Char) (value : JsonValue) :
    Prop :=
  ∀ fuel depth close rest, (close = ',' ∨ close = '\x7d') →
    readValue otherNumber (fuel + 1) depth (text ++ close :: rest) = some (value, close :: rest)

theorem renders_string {code : Char → List Char} (h : ∀ c, Reads (code c) c) (text : String) :
    Renders otherNumber ('"' :: (text.toList.flatMap code ++ ['"'])) (.string text) := by
  intro fuel depth close rest _
  have henough : text.toList.length <
      (text.toList.flatMap code ++ '"' :: close :: rest).length + 1 := by
    have hlen : ∀ xs : List Char, xs.length ≤ (xs.flatMap code).length := by
      intro xs
      induction xs with
      | nil => exact Nat.zero_le _
      | cons c xs ih =>
        have hpos : 0 < (code c).length := by
          rcases hc : code c with - | ⟨first, more⟩
          · -- an empty word reads as nothing
            have hbad := h c 1 ['"']
            rw [hc] at hbad
            cases hbad
          · simp
        rw [List.flatMap_cons, List.length_append, List.length_cons]
        omega
    have hthis := hlen text.toList
    simp only [List.length_append]
    omega
  have hread := readString_flatMap h text.toList (close :: rest) henough
  have hshape : ('"' :: (text.toList.flatMap code ++ ['"'])) ++ close :: rest =
      '"' :: (text.toList.flatMap code ++ '"' :: close :: rest) := by simp
  have hspace : skipSpace ('"' :: (text.toList.flatMap code ++ '"' :: close :: rest)) =
      '"' :: (text.toList.flatMap code ++ '"' :: close :: rest) := skipSpace_cons rfl _
  rw [hshape, readValue, hspace]
  simp only [if_true, hread, Option.map_some, String.ofList_toList]

theorem isDigit_toDigits {n : Nat} : ∀ c ∈ Nat.toDigits 10 n, c.isDigit = true :=
  fun _ hc => Nat.isDigit_of_mem_toDigits (by decide) (by decide) hc

/-- Only zero is written with a leading zero. -/
theorem toDigits_head_zero (n : Nat) (h : (Nat.toDigits 10 n).head? = some '0') :
    Nat.toDigits 10 n = ['0'] := by
  induction n using Nat.strong_induction_on with
  | _ n ih =>
    rw [Nat.toDigits_eq_if (by omega)] at h ⊢
    split
    next hlt =>
      rw [if_pos hlt] at h
      have hc : n.digitChar = '0' := by simpa using h
      rw [hc]
    next hge =>
      rw [if_neg hge, List.head?_append_of_ne_nil _ Nat.toDigits_ne_nil] at h
      have hquot := ih (n / 10) (by omega) h
      have hval := congrArg (fun digits => Nat.ofDigitChars 10 digits 0) hquot
      rw [Nat.ofDigitChars_ten_toDigits] at hval
      have hzero : Nat.ofDigitChars 10 ['0'] 0 = 0 := rfl
      rw [hzero] at hval
      omega

theorem renders_number {n : Nat} (bound : n < 18446744073709551616) :
    Renders otherNumber (Nat.toDigits 10 n) (.number (.posInt (UInt64.ofNat n))) := by
  intro fuel depth close rest stop
  have hdigits := isDigit_toDigits (n := n)
  have hclose : isNumberChar close = false := by
    rcases stop with rfl | rfl <;> rfl
  have htake : (Nat.toDigits 10 n ++ close :: rest).takeWhile isNumberChar = Nat.toDigits 10 n := by
    rw [List.takeWhile_append_of_pos (fun c hc => by simp [isNumberChar, hdigits c hc]),
      List.takeWhile_cons_of_neg (by simp [hclose]), List.append_nil]
  have hdrop : (Nat.toDigits 10 n ++ close :: rest).dropWhile isNumberChar = close :: rest := by
    rw [List.dropWhile_append_of_pos (fun c hc => by simp [isNumberChar, hdigits c hc]),
      List.dropWhile_cons_of_neg (by simp [hclose])]
  have hnumber : numberOf otherNumber (Nat.toDigits 10 n) = some (.posInt (UInt64.ofNat n)) := by
    have hval : Nat.ofDigitChars 10 (Nat.toDigits 10 n) 0 = n := Nat.ofDigitChars_ten_toDigits
    rw [numberOf, if_pos, hval]
    exact ⟨Nat.toDigits_ne_nil, List.all_eq_true.mpr hdigits, toDigits_head_zero n,
      by rw [hval]; exact bound⟩
  cases hd : Nat.toDigits 10 n with
  | nil => exact absurd hd Nat.toDigits_ne_nil
  | cons first more =>
    have hfirst : first.isDigit = true := hdigits first (by simp [hd])
    have hne (c : Char) (hc : c.isDigit = false) : first ≠ c := fun he => by
      rw [he, hc] at hfirst
      cases hfirst
    have hspace : isJsonSpace first = false := by
      simp [isJsonSpace, hne ' ' rfl, hne '\n' rfl, hne '\t' rfl, hne '\r' rfl]
    rw [hd] at htake hdrop hnumber
    rw [readValue, List.cons_append, skipSpace_cons hspace, ← List.cons_append]
    simp only [List.cons_append, if_neg (hne '"' rfl), if_neg (hne '[' rfl),
      if_neg (hne '\x7b' rfl), if_neg (hne 'n' rfl), if_neg (hne 't' rfl), if_neg (hne 'f' rfl)]
    rw [← List.cons_append, htake, hdrop, hnumber]
    rfl

/-- A key that needs no escape. -/
def PlainKey (key : String) : Prop :=
  ∀ c ∈ key.toList, c ≠ '"' ∧ c ≠ '\\' ∧ 0x20 ≤ c.toNat

theorem readString_plain {key : List Char} (plain : ∀ c ∈ key, c ≠ '"' ∧ c ≠ '\\' ∧ 0x20 ≤ c.toNat)
    (rest : List Char) {fuel : Nat} (enough : key.length < fuel) :
    readString fuel (key ++ '"' :: rest) = some (key, rest) := by
  induction key generalizing fuel with
  | nil =>
    obtain ⟨fuel, rfl⟩ := Nat.exists_eq_succ_of_ne_zero (Nat.ne_of_gt enough)
    rfl
  | cons c key ih =>
    obtain ⟨fuel, rfl⟩ := Nat.exists_eq_succ_of_ne_zero (Nat.ne_of_gt (Nat.zero_lt_of_lt enough))
    obtain ⟨quote, slash, visible⟩ := plain c List.mem_cons_self
    have hlen : key.length < fuel := Nat.lt_of_succ_lt_succ enough
    have hc := reads_self quote slash visible fuel (key ++ '"' :: rest)
    rw [ih (fun d hd => plain d (List.mem_cons_of_mem c hd)) hlen] at hc
    exact hc

/-- The fields of a compact object text. -/
def fieldsText : List (String × List Char) → List Char
  | [] => []
  | [(key, text)] => '"' :: (key.toList ++ '"' :: ':' :: text)
  | (key, text) :: field :: fields =>
    '"' :: (key.toList ++ '"' :: ':' :: (text ++ ',' :: fieldsText (field :: fields)))

/-- A field with its key, its text and the value that the text stands for. -/
structure RenderedField (otherNumber : List Char → Option JsonNumber) where
  key : String
  text : List Char
  value : JsonValue
  plain : PlainKey key
  renders : Renders otherNumber text value

theorem readFields_step (field : RenderedField otherNumber) (fuel depth : Nat) (opening : Bool)
    (close : Char) (rest : List Char) (stop : close = ',' ∨ close = '\x7d') :
    readFields otherNumber (fuel + 2) depth opening
        ('"' :: (field.key.toList ++ '"' :: ':' :: (field.text ++ close :: rest))) =
      if close = ',' then
        (readFields otherNumber (fuel + 1) depth false rest).map fun (fields, rest) =>
          ((field.key, field.value) :: fields, rest)
      else some ([(field.key, field.value)], rest) := by
  have hlen : field.key.toList.length <
      (field.key.toList ++ '"' :: ':' :: (field.text ++ close :: rest)).length + 1 := by
    simp only [List.length_append]
    omega
  have hkey := readString_plain field.plain (':' :: (field.text ++ close :: rest)) hlen
  have hvalue := field.renders fuel depth close rest stop
  have hclose : isJsonSpace close = false := by
    rcases stop with rfl | rfl <;> rfl
  rw [readFields, skipSpace_cons rfl]
  simp only [hkey, Option.bind_eq_bind, Option.bind_some, skipSpace_cons (rfl : isJsonSpace ':' = false),
    hvalue, skipSpace_cons hclose]
  rcases stop with rfl | rfl
  · simp
  · simp

/-- The fields of a compact object are read in their order. -/
theorem readFields_fieldsText (field : RenderedField otherNumber)
    (fields : List (RenderedField otherNumber)) (depth : Nat) (opening : Bool) (rest : List Char)
    {fuel : Nat} (enough : fields.length + 2 ≤ fuel) :
    readFields otherNumber fuel depth opening
        (fieldsText ((field :: fields).map fun field => (field.key, field.text)) ++ '\x7d' :: rest) =
      some ((field :: fields).map fun field => (field.key, field.value), rest) := by
  induction fields generalizing field opening fuel with
  | nil =>
    obtain ⟨fuel, rfl⟩ := Nat.exists_eq_add_of_le' enough
    have hstep := readFields_step field fuel depth opening '\x7d' rest (.inr rfl)
    rw [if_neg (by decide)] at hstep
    simpa [fieldsText] using hstep
  | cons next fields ih =>
    obtain ⟨fuel, rfl⟩ := Nat.exists_eq_add_of_le' enough
    have hstep := readFields_step field (fuel + fields.length + 1) depth opening ','
      (fieldsText ((next :: fields).map fun field => (field.key, field.text)) ++ '\x7d' :: rest)
      (.inl rfl)
    have hmore : fields.length + 2 ≤ fuel + fields.length + 2 := by omega
    have hrest := ih next false hmore
    rw [if_pos rfl, hrest] at hstep
    have hfuel : fuel + ((next :: fields).length + 2) = fuel + fields.length + 1 + 2 := by
      simp only [List.length_cons]
      omega
    rw [hfuel]
    simpa [fieldsText] using hstep

theorem length_le_fieldsText (fields : List (RenderedField otherNumber)) :
    fields.length ≤ (fieldsText (fields.map fun field => (field.key, field.text))).length := by
  induction fields with
  | nil => exact Nat.zero_le _
  | cons field fields ih =>
    cases fields with
    | nil => simp [fieldsText]
    | cons next fields =>
      simp only [List.map_cons, fieldsText, List.length_cons, List.length_append] at ih ⊢
      omega

/-- A compact object parses to its fields. -/
theorem parseJson_fieldsText (field : RenderedField otherNumber)
    (fields : List (RenderedField otherNumber)) :
    ∃ entries, parseJson otherNumber (String.ofList
        ('\x7b' :: (fieldsText ((field :: fields).map fun field => (field.key, field.text)) ++
          ['\x7d']))) = some (.object entries) ∧
      entries = ((field :: fields).map fun field => (field.key, field.value)).foldl
        (fun entries field => SortedMap.insertEntry field.1 field.2 entries) [] := by
  have enough : fields.length + 2 ≤ 2 * ('\x7b' :: (fieldsText
      ((field :: fields).map fun field => (field.key, field.text)) ++ ['\x7d'])).length + 1 := by
    have h := length_le_fieldsText (field :: fields)
    simp only [List.length_cons, List.length_append] at h ⊢
    omega
  have hfields := readFields_fieldsText field fields 127 true [] enough
  refine ⟨_, ?_, rfl⟩
  have hdepth : ¬ (128 : Nat) ≤ 1 := by omega
  rw [parseJson, String.toList_ofList, readValue, skipSpace_cons rfl]
  simp only [if_neg (by decide : ¬ ('\x7b' : Char) = '"'), if_neg (by decide : ¬ ('\x7b' : Char) = '['),
    if_true, if_neg hdepth, hfields, Option.map_some]
  rfl

end Records

end AutoHarness
