import AutoHarness.Value

namespace AutoHarness

section Bytes

@[simp] theorem utf8Length_nil : utf8Length [] = 0 := rfl

@[simp] theorem utf8Length_cons (c : Char) (text : List Char) :
    utf8Length (c :: text) = c.utf8Size + utf8Length text := rfl

@[simp] theorem utf8Length_append (text later : List Char) :
    utf8Length (text ++ later) = utf8Length text + utf8Length later := by
  induction text with
  | nil => simp
  | cons c text ih =>
    rw [List.cons_append, utf8Length_cons, utf8Length_cons, ih]
    omega

theorem utf8ByteSize_ofList_eq (text : List Char) :
    (String.ofList text).utf8ByteSize = utf8Length text := by
  induction text with
  | nil => rfl
  | cons c text ih =>
    rw [← List.singleton_append, String.ofList_append, String.utf8ByteSize_append, ih]
    simp [utf8Length]

theorem truncateBytes_append {bytes : Nat} {text : List Char} (later : List Char)
    (fits : utf8Length text ≤ bytes) :
    truncateBytes bytes (text ++ later) = text ++ truncateBytes (bytes - utf8Length text) later := by
  induction text generalizing bytes with
  | nil => rfl
  | cons c text ih =>
    rw [utf8Length_cons] at fits ⊢
    rw [List.cons_append, truncateBytes, if_pos (by omega), ih (by omega), Nat.sub_sub]
    rfl

/-- Text is cut before the first character that no longer fits. -/
theorem truncateBytes_cut {bytes : Nat} {text : List Char} {c : Char} {later : List Char}
    (fits : utf8Length text ≤ bytes) (exceeds : bytes < utf8Length text + c.utf8Size) :
    truncateBytes bytes (text ++ c :: later) = text := by
  rw [truncateBytes_append _ fits, truncateBytes, if_neg (by omega), List.append_nil]

theorem truncateBytes_prefix (bytes : Nat) (text : List Char) :
    truncateBytes bytes text <+: text := by
  induction text generalizing bytes with
  | nil => exact List.prefix_refl _
  | cons c text ih =>
    unfold truncateBytes
    split
    next => exact (List.prefix_cons_inj c).mpr (ih _)
    next => exact List.nil_prefix

theorem utf8Length_truncateBytes_le (bytes : Nat) (text : List Char) :
    utf8Length (truncateBytes bytes text) ≤ bytes := by
  induction text generalizing bytes with
  | nil => exact Nat.zero_le _
  | cons c text ih =>
    unfold truncateBytes
    split
    next fits =>
      have hrest := ih (bytes - c.utf8Size)
      rw [utf8Length_cons]
      omega
    next => exact Nat.zero_le _

end Bytes

section Words

/-- What stands between the words of a line. -/
def separates (c : Char) : Bool :=
  isWhitespace c || isControl c

/-- The words of a line that starts within a word. -/
def wordsFrom (word line : List Char) : List (List Char) :=
  ((line.splitOnP separates).modifyHead (word ++ ·)).filter fun piece => !piece.isEmpty

/-- The longest runs of characters that do not separate. -/
def wordsOf (line : List Char) : List (List Char) :=
  (line.splitOnP separates).filter fun piece => !piece.isEmpty

/-- Words with one blank between them. -/
def joined (words : List (List Char)) : List Char :=
  [' '].intercalate words

/-- The joined words are short enough for a title. -/
def Fits (words : List (List Char)) : Prop :=
  utf8Length (joined words) ≤ maxSessionTitleBytes

theorem wordsFrom_eq (word line : List Char) : wordsFrom word line =
    (line.splitOnPPrepend separates word.reverse).filter fun piece => !piece.isEmpty := by
  rw [wordsFrom, List.splitOnPPrepend_eq_modifyHead, List.reverse_reverse]

theorem wordsFrom_nil_left (line : List Char) : wordsFrom [] line = wordsOf line :=
  wordsFrom_eq [] line

theorem wordsFrom_nil {word : List Char} (h : word ≠ []) : wordsFrom word [] = [word] := by
  simp [wordsFrom, h]

theorem wordsFrom_separated {word : List Char} {c : Char} (line : List Char) (h : word ≠ [])
    (between : separates c = true) : wordsFrom word (c :: line) = word :: wordsOf line := by
  rw [wordsFrom_eq, List.splitOnPPrepend_cons_pos between, List.reverse_reverse,
    List.filter_cons_of_pos (by simp [h])]
  rfl

theorem wordsOf_separated {c : Char} (line : List Char) (between : separates c = true) :
    wordsOf (c :: line) = wordsOf line := by
  rw [← wordsFrom_nil_left, wordsFrom_eq, List.reverse_nil, List.splitOnPPrepend_cons_pos between]
  rfl

theorem wordsFrom_cons {c : Char} (word line : List Char) (within : separates c = false) :
    wordsFrom word (c :: line) = wordsFrom (word ++ [c]) line := by
  rw [wordsFrom_eq, List.splitOnPPrepend_cons_neg within, wordsFrom_eq, List.reverse_append]
  rfl

/-- A line that starts within a word has a word that starts with it. -/
theorem wordsFrom_head {word : List Char} (line : List Char) (h : word ≠ []) :
    ∃ more later, wordsFrom word line = (word ++ more) :: later := by
  induction line generalizing word with
  | nil => exact ⟨[], [], by rw [wordsFrom_nil h, List.append_nil]⟩
  | cons c line ih =>
    cases between : separates c with
    | true => exact ⟨[], wordsOf line, by rw [wordsFrom_separated line h between, List.append_nil]⟩
    | false =>
      obtain ⟨more, later, hwords⟩ := @ih (word ++ [c]) (by simp)
      refine ⟨c :: more, later, ?_⟩
      rw [wordsFrom_cons word line between, hwords, List.append_assoc]
      rfl

theorem joined_append {words later : List (List Char)} (h : words ≠ []) (h' : later ≠ []) :
    joined (words ++ later) = joined words ++ ' ' :: joined later := by
  induction words with
  | nil => exact absurd rfl h
  | cons word words ih =>
    cases words with
    | nil =>
      show joined (word :: later) = _
      rw [joined, List.intercalate_cons_of_ne_nil h']
      simp [joined]
    | cons second rest =>
      have hrest := ih (by simp)
      show joined (word :: (second :: rest ++ later)) = _
      rw [joined, List.intercalate_cons_of_ne_nil (by simp)]
      unfold joined at hrest
      rw [hrest, joined, List.intercalate_cons_cons]
      simp [joined]

@[simp] theorem joined_nil : joined [] = [] := rfl

@[simp] theorem joined_singleton (word : List Char) : joined [word] = word :=
  List.intercalate_singleton

/-- Words without an empty one and without a separator in them. -/
def Worded (words : List (List Char)) : Prop :=
  ∀ word ∈ words, word ≠ [] ∧ ∀ c ∈ word, separates c = false

theorem wordsOf_nil : wordsOf [] = [] := rfl

theorem worded_wordsFrom {word : List Char} (line : List Char)
    (plain : ∀ c ∈ word, separates c = false) : Worded (wordsFrom word line) := by
  induction line generalizing word with
  | nil =>
    by_cases h : word = []
    · rw [h, wordsFrom_nil_left, wordsOf_nil]
      exact nofun
    · rw [wordsFrom_nil h]
      intro word' mem
      obtain rfl := List.mem_singleton.mp mem
      exact ⟨h, plain⟩
  | cons c line ih =>
    cases sep : separates c with
    | true =>
      have hlater : Worded (wordsOf line) := wordsFrom_nil_left line ▸ ih nofun
      by_cases h : word = []
      · rwa [h, wordsFrom_nil_left, wordsOf_separated line sep]
      · rw [wordsFrom_separated line h sep]
        intro word' mem
        obtain rfl | mem := List.mem_cons.mp mem
        · exact ⟨h, plain⟩
        · exact hlater word' mem
    | false =>
      rw [wordsFrom_cons word line sep]
      apply ih
      intro c' mem
      obtain mem | mem := List.mem_append.mp mem
      · exact plain c' mem
      · rwa [List.mem_singleton.mp mem]

theorem worded_wordsOf (line : List Char) : Worded (wordsOf line) :=
  wordsFrom_nil_left line ▸ worded_wordsFrom line nofun

theorem wordsFrom_append {word text : List Char} (line : List Char)
    (plain : ∀ c ∈ text, separates c = false) :
    wordsFrom word (text ++ line) = wordsFrom (word ++ text) line := by
  induction text generalizing word with
  | nil => rw [List.nil_append, List.append_nil]
  | cons c text ih =>
    have hc := plain c (List.mem_cons_self ..)
    have htext := fun c' mem => plain c' (List.mem_cons_of_mem c mem)
    rw [List.cons_append, wordsFrom_cons word _ hc, ih htext, List.append_assoc]
    rfl

/-- Joined words are read back. -/
theorem wordsOf_joined {words : List (List Char)} (worded : Worded words) :
    wordsOf (joined words) = words := by
  induction words with
  | nil => rfl
  | cons word later ih =>
    obtain ⟨hword, plain⟩ := worded word (List.mem_cons_self ..)
    have hlater := ih fun word' mem => worded word' (List.mem_cons_of_mem word mem)
    by_cases h : later = []
    · rw [h, joined_singleton, ← wordsFrom_nil_left, ← List.append_nil word,
        wordsFrom_append [] plain, List.nil_append, List.append_nil, wordsFrom_nil hword]
    · have hblank : separates ' ' = true := by decide
      rw [← List.singleton_append, joined_append (by simp) h, joined_singleton,
        ← wordsFrom_nil_left, wordsFrom_append _ plain, List.nil_append,
        wordsFrom_separated _ hword hblank, hlater]
      rfl

theorem mem_joined {words : List (List Char)} {c : Char} (h : c ∈ joined words) :
    c = ' ' ∨ ∃ word ∈ words, c ∈ word := by
  induction words with
  | nil => cases h
  | cons word later ih =>
    by_cases hlater : later = []
    · rw [hlater, joined_singleton] at h
      exact .inr ⟨word, List.mem_cons_self .., h⟩
    · rw [← List.singleton_append, joined_append (by simp) hlater, joined_singleton] at h
      obtain h | h := List.mem_append.mp h
      · exact .inr ⟨word, List.mem_cons_self .., h⟩
      · obtain h | h := List.mem_cons.mp h
        · exact .inl h
        · obtain blank | ⟨word', mem, within⟩ := ih h
          · exact .inl blank
          · exact .inr ⟨word', List.mem_cons_of_mem word mem, within⟩

theorem mem_joined_of_mem {words : List (List Char)} {word : List Char} {c : Char}
    (mem : word ∈ words) (h : c ∈ word) : c ∈ joined words := by
  obtain ⟨front, back, rfl⟩ := List.append_of_mem mem
  have hback : c ∈ joined (word :: back) := by
    by_cases hempty : back = []
    · rwa [hempty, joined_singleton]
    · rw [← List.singleton_append, joined_append (by simp) hempty, joined_singleton]
      exact List.mem_append_left _ h
  by_cases hfront : front = []
  · rwa [hfront]
  · rw [joined_append hfront (by simp)]
    exact List.mem_append_right _ (List.mem_cons_of_mem _ hback)

end Words

end AutoHarness
