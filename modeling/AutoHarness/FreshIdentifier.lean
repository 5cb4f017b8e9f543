import AutoHarness.Identifier
import Mathlib

namespace AutoHarness

/-- The lowest binary digits of a number. -/
def binaryDigits (width n : Nat) : List Char :=
  (List.range width).map fun k => if n.testBit k then '1' else '0'

theorem mem_binaryDigits {width n : Nat} {c : Char} (h : c ∈ binaryDigits width n) :
    c = '0' ∨ c = '1' := by
  obtain ⟨k, -, rfl⟩ := List.mem_map.mp h
  split
  · exact .inr rfl
  · exact .inl rfl

theorem binaryDigits_injective {width m n : Nat} (hm : m < 2 ^ width) (hn : n < 2 ^ width)
    (h : binaryDigits width m = binaryDigits width n) : m = n := by
  refine Nat.eq_of_testBit_eq fun k => ?_
  by_cases hk : k < width
  · have digit := List.map_inj_left.mp h k (List.mem_range.mpr hk)
    cases hb : m.testBit k <;> cases hc : n.testBit k <;> simp [hb, hc] at digit ⊢
  · have large : 2 ^ width ≤ 2 ^ k := Nat.pow_le_pow_right (by omega) (by omega)
    rw [Nat.testBit_lt_two_pow (by omega), Nat.testBit_lt_two_pow (by omega)]

theorem validateIdentifier_of_digits {digits : List Char} (nonempty : digits ≠ [])
    (short : digits.length ≤ maxIdentifierBytes) (h : ∀ c ∈ digits, c = '0' ∨ c = '1') :
    validateIdentifier (String.ofList digits) = .ok () := by
  refine validateIdentifier_of_isSafe nonempty short fun c hc => ?_
  rcases h c hc with rfl | rfl <;> decide

/-- The identifier that spells the lowest 64 binary digits of a number. -/
def Identifier.ofNat {kind : IdentifierKind} (n : Nat) : Identifier kind :=
  ⟨String.ofList (binaryDigits 64 n), validateIdentifier_of_digits (by simp [binaryDigits])
    (by simp [binaryDigits, maxIdentifierBytes]) fun _ => mem_binaryDigits⟩

theorem identifier_ofNat_injOn {kind : IdentifierKind} :
    Set.InjOn (@Identifier.ofNat kind) (Finset.range (2 ^ 64)) := by
  intro m hm n hn h
  have digits := String.ofList_injective (congrArg Identifier.value h)
  exact binaryDigits_injective (by simpa using hm) (by simpa using hn) digits

/-- There are more identifiers than a session can use up. -/
theorem exists_fresh_identifier {kind : IdentifierKind} (used : Finset (Identifier kind))
    (few : used.card < 2 ^ 64) : ∃ id, id ∉ used := by
  have many : used.card < ((Finset.range (2 ^ 64)).image (@Identifier.ofNat kind)).card := by
    rw [Finset.card_image_of_injOn identifier_ofNat_injOn, Finset.card_range]
    exact few
  obtain ⟨id, -, fresh⟩ := Finset.exists_mem_notMem_of_card_lt_card many
  exact ⟨id, fresh⟩

end AutoHarness
