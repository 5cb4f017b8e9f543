import Mathlib.Data.List.Infix

namespace PrefixCode

variable {α β : Type*}

/-- No code word is empty and none begins another one. -/
structure IsPrefixCode (code : α → List β) : Prop where
  nonempty : ∀ a, code a ≠ []
  free : ∀ a b, code a <+: code b → a = b

namespace IsPrefixCode

variable {code : α → List β}

/-- The first word of a text is determined by the text. -/
theorem head_eq (hc : IsPrefixCode code) {a b : α} {x y : List β}
    (h : code a ++ x = code b ++ y) : a = b := by
  have ha : code a <+: code b ++ y := ⟨x, h⟩
  have hb : code b <+: code b ++ y := ⟨y, rfl⟩
  rcases Nat.le_total (code a).length (code b).length with hl | hl
  · exact hc.free a b (List.prefix_of_prefix_length_le ha hb hl)
  · exact (hc.free b a (List.prefix_of_prefix_length_le hb ha hl)).symm

/-- A text is the code of at most one list of symbols. -/
theorem flatMap_injective (hc : IsPrefixCode code) :
    Function.Injective fun symbols : List α => symbols.flatMap code := by
  intro left
  induction left with
  | nil =>
    intro right h
    cases right with
    | nil => rfl
    | cons b bs =>
      have hn : code b ++ bs.flatMap code = [] := by simpa using h.symm
      exact absurd (List.append_eq_nil_iff.mp hn).1 (hc.nonempty b)
  | cons a as ih =>
    intro right h
    cases right with
    | nil =>
      have hn : code a ++ as.flatMap code = [] := by simpa using h
      exact absurd (List.append_eq_nil_iff.mp hn).1 (hc.nonempty a)
    | cons b bs =>
      have he : code a ++ as.flatMap code = code b ++ bs.flatMap code := by simpa using h
      have hab : a = b := hc.head_eq he
      subst hab
      have ht : as = bs := ih (List.append_cancel_left he)
      rw [ht]

end IsPrefixCode

/-- Words that end in a mark that they hold nowhere else form a prefix code. -/
theorem eq_of_terminated_prefix {stop : β} {x y : List β} (hy : stop ∉ y)
    (h : x ++ [stop] <+: y ++ [stop]) : x = y := by
  obtain ⟨rest, hr⟩ := h
  induction x generalizing y with
  | nil =>
    cases y with
    | nil => rfl
    | cons b bs =>
      have hb : stop = b := by simpa using congrArg List.head? hr
      exact absurd (by simp [hb]) hy
  | cons a as ih =>
    cases y with
    | nil =>
      have hl := congrArg List.length hr
      simp only [List.cons_append, List.nil_append, List.length_cons, List.length_append,
        List.length_nil] at hl
      omega
    | cons b bs =>
      simp only [List.cons_append, List.cons.injEq] at hr
      have ht : as = bs := ih (fun hm => hy (List.mem_cons_of_mem b hm)) hr.2
      rw [hr.1, ht]

end PrefixCode
