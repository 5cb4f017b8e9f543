import Mathlib.Data.List.DropRight
import Mathlib.Data.List.Infix

namespace StreamSearch

variable {α : Type*}

section Windows

/-- The runs of `n` neighbouring symbols, from the left. -/
def windows (n : Nat) (text : List α) : List (List α) :=
  (List.range (text.length + 1 - n)).map fun start => (text.drop start).take n

theorem mem_windows_iff {word text : List α} :
    word ∈ windows word.length text ↔ word <:+: text := by
  constructor
  · intro hw
    obtain ⟨start, -, he⟩ := List.mem_map.mp hw
    have hi : (text.drop start).take word.length <:+: text :=
      (List.take_prefix _ _).isInfix.trans (List.drop_suffix _ _).isInfix
    rwa [he] at hi
  · rintro ⟨before, after, rfl⟩
    have hlen : before.length < (before ++ word ++ after).length + 1 - word.length := by
      simp only [List.length_append]
      omega
    refine List.mem_map.mpr ⟨before.length, List.mem_range.mpr hlen, ?_⟩
    rw [List.append_assoc, List.drop_left, List.take_left]

end Windows

section Tail

/-- A word that the history does not hold needs less than its length of the history. -/
theorem infix_append_iff {word history chunk : List α} {n : Nat} (hn : word.length ≤ n + 1) :
    word <:+: history ++ chunk ↔ word <:+: history ∨ word <:+: history.rtake n ++ chunk := by
  constructor
  · rintro ⟨before, after, h⟩
    have hlen := congrArg List.length h
    simp only [List.length_append] at hlen
    by_cases hin : before.length + word.length ≤ history.length
    · left
      have hp : before ++ word <+: history := by
        have hl : before ++ word <+: history ++ chunk := ⟨after, h⟩
        refine List.prefix_of_prefix_length_le hl (List.prefix_append _ _) ?_
        simpa using hin
      exact (List.suffix_append before word).isInfix.trans hp.isInfix
    · right
      have hk : history.length - n ≤ before.length := by omega
      refine ⟨before.drop (history.length - n), after, ?_⟩
      have hd := congrArg (List.drop (history.length - n)) h
      rw [List.append_assoc, List.drop_append_of_le_length hk,
        List.drop_append_of_le_length (by omega)] at hd
      rw [List.append_assoc, hd]
      rfl
  · rintro (h | h)
    · exact h.trans (List.prefix_append _ _).isInfix
    · have hs : history.rtake n ++ chunk <:+ history ++ chunk := by
        refine ⟨history.rdrop n, ?_⟩
        rw [← List.append_assoc]
        congr 1
        simp only [List.rdrop, List.rtake]
        exact List.take_append_drop _ _
      exact h.trans hs.isInfix

/-- What is kept of a kept tail and a chunk is what is kept of the whole. -/
theorem rtake_rtake_append (n : Nat) (history chunk : List α) :
    (history.rtake n ++ chunk).rtake n = (history ++ chunk).rtake n := by
  have hmin : min (n - chunk.length) n = n - chunk.length := by omega
  simp only [List.rtake_eq_reverse_take_reverse, List.reverse_append, List.reverse_reverse,
    List.take_append, List.length_reverse, List.take_take, hmin]

end Tail

section Search

/-- Some word of a fixed list occurs in the text. -/
def Occurs (words : List (List α)) (text : List α) : Prop :=
  ∃ word ∈ words, word ≠ [] ∧ word <:+: text

theorem Occurs.append {words : List (List α)} {text : List α} (h : Occurs words text)
    (more : List α) : Occurs words (text ++ more) := by
  obtain ⟨word, hm, hne, hi⟩ := h
  exact ⟨word, hm, hne, hi.trans (List.prefix_append _ _).isInfix⟩

theorem not_occurs_nil (words : List (List α)) : ¬ Occurs words [] := by
  rintro ⟨word, -, hne, hi⟩
  exact hne (List.infix_nil.mp hi)

theorem occurs_append_iff {words : List (List α)} {history chunk : List α} {n : Nat}
    (hn : ∀ word ∈ words, word.length ≤ n + 1) :
    Occurs words (history ++ chunk) ↔
      Occurs words history ∨ Occurs words (history.rtake n ++ chunk) := by
  constructor
  · rintro ⟨word, hm, hne, hi⟩
    rcases (infix_append_iff (hn word hm)).mp hi with h | h
    · exact .inl ⟨word, hm, hne, h⟩
    · exact .inr ⟨word, hm, hne, h⟩
  · rintro (⟨word, hm, hne, hi⟩ | ⟨word, hm, hne, hi⟩)
    · exact ⟨word, hm, hne, (infix_append_iff (hn word hm)).mpr (.inl hi)⟩
    · exact ⟨word, hm, hne, (infix_append_iff (hn word hm)).mpr (.inr hi)⟩

/-- What each chunk is answered when only a tail of the text is kept. -/
def answers (check : List α → Bool) (n : Nat) (tail : List α) : List (List α) → List Bool
  | [] => []
  | chunk :: chunks =>
    check (tail ++ chunk) :: answers check n ((tail ++ chunk).rtake n) chunks

variable {check : List α → Bool} {n : Nat} {words : List (List α)}

@[simp] theorem length_answers (tail : List α) (chunks : List (List α)) :
    (answers check n tail chunks).length = chunks.length := by
  induction chunks generalizing tail with
  | nil => rfl
  | cons chunk chunks ih => simp [answers, ih]

theorem answers_take (tail : List α) (chunks : List (List α)) (k : Nat) :
    (answers check n tail chunks).take k = answers check n tail (chunks.take k) := by
  induction chunks generalizing tail k with
  | nil => simp [answers]
  | cons chunk chunks ih =>
    cases k with
    | zero => rfl
    | succ k => simp [answers, ih]

/-- Some chunk is answered yes just when a word occurs in the whole text. -/
theorem mem_answers_iff (hn : ∀ word ∈ words, word.length ≤ n + 1)
    (hc : ∀ text, check text = true ↔ Occurs words text) (history : List α)
    (chunks : List (List α)) :
    (Occurs words history ∨ true ∈ answers check n (history.rtake n) chunks) ↔
      Occurs words (history ++ chunks.flatten) := by
  induction chunks generalizing history with
  | nil => simp [answers]
  | cons chunk chunks ih =>
    have step := ih (history ++ chunk)
    rw [List.append_assoc, occurs_append_iff hn] at step
    rw [List.flatten_cons, ← step, answers, rtake_rtake_append, List.mem_cons, eq_comm, hc]
    tauto

/-- The first yes comes with the chunk that completes the first occurrence. -/
theorem first_answer_iff (hn : ∀ word ∈ words, word.length ≤ n + 1)
    (hc : ∀ text, check text = true ↔ Occurs words text) (chunks : List (List α)) (k : Nat) :
    ((answers check n [] chunks)[k]? = some true ∧
        ∀ j < k, (answers check n [] chunks)[j]? = some false) ↔
      k < chunks.length ∧ Occurs words (chunks.take (k + 1)).flatten ∧
        ¬ Occurs words (chunks.take k).flatten := by
  have upTo (m : Nat) : true ∈ (answers check n [] chunks).take m ↔
      Occurs words (chunks.take m).flatten := by
    rw [answers_take]
    have h := mem_answers_iff hn hc [] (chunks.take m)
    simpa [not_occurs_nil] using h
  have hlen : (answers check n [] chunks).length = chunks.length := length_answers [] chunks
  rw [← upTo, ← upTo]
  generalize answers check n [] chunks = results at hlen ⊢
  constructor
  · rintro ⟨hit, misses⟩
    obtain ⟨hk, he⟩ := List.getElem?_eq_some_iff.mp hit
    refine ⟨by omega, ?_, ?_⟩
    · rw [List.take_add_one, hit]
      simp
    · intro hm
      obtain ⟨j, hj, hv⟩ := List.mem_take_iff_getElem.mp hm
      have hmiss := misses j (by omega)
      rw [List.getElem?_eq_getElem (by omega), hv] at hmiss
      cases hmiss
  · rintro ⟨hk, hin, hout⟩
    have before : ∀ j < k, results[j]? = some false := by
      intro j hj
      rw [List.getElem?_eq_getElem (by omega)]
      cases hv : results[j] with
      | false => rfl
      | true => exact absurd (List.mem_take_iff_getElem.mpr ⟨j, by omega, hv⟩) hout
    refine ⟨?_, before⟩
    rw [List.take_add_one, List.mem_append] at hin
    rcases hin with hin | hin
    · exact absurd hin hout
    · simpa using hin

end Search

end StreamSearch
