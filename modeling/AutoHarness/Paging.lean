import AutoHarness.FallibleRun
import Mathlib.Data.List.Basic

namespace Paging

variable {α ε : Type*} {position : α → Nat} {xs page rest : List α} {x last : α} {after : Nat}

/-- Read page after page until the cursor reaches the bound, moving it each time to the last
entry read; `none` when the fuel ends before the reading does. An empty page before the bound
and a cursor beyond it are inconsistent. -/
def readAll (position : α → Nat) (fetch : Nat → Except ε (List α)) (inconsistent : ε)
    (bound : Nat) : Nat → Nat → Option (Except ε (List α))
  | 0, _ => none
  | fuel + 1, after =>
    if after < bound then
      match fetch after with
      | .error e => some (.error e)
      | .ok page =>
        match page.getLast? with
        | none => some (.error inconsistent)
        | some last =>
          (readAll position fetch inconsistent bound fuel (position last)).map fun tail =>
            tail.map fun entries => page ++ entries
    else if after = bound then some (.ok [])
    else some (.error inconsistent)

/-- The entries behind a cursor. -/
def remaining (position : α → Nat) (after : Nat) (xs : List α) : List α :=
  xs.filter fun x => after < position x

theorem mem_remaining : x ∈ remaining position after xs ↔ x ∈ xs ∧ after < position x := by
  simp [remaining]

/-- Positions never pass that of the last entry. -/
theorem position_le_last (sorted : xs.Pairwise fun x y => position x < position y)
    (hl : xs.getLast? = some last) (hx : x ∈ xs) : position x ≤ position last := by
  obtain ⟨init, rfl⟩ := List.getLast?_eq_some_iff.mp hl
  rcases List.mem_append.mp hx with hx | hx
  · exact Nat.le_of_lt ((List.pairwise_append.mp sorted).2.2 x hx last (by simp))
  · cases List.mem_singleton.mp hx
    exact Nat.le_refl _

/-- A page that starts behind the cursor leaves exactly its rest behind its last entry. -/
theorem remaining_of_page (sorted : xs.Pairwise fun x y => position x < position y)
    (split : remaining position after xs = page ++ rest) (hl : page.getLast? = some last) :
    remaining position (position last) xs = rest := by
  have member : last ∈ remaining position after xs := by
    rw [split]
    exact List.mem_append_left _ (List.mem_of_getLast? hl)
  have later := (mem_remaining.mp member).2
  have narrow : remaining position (position last) xs =
      remaining position (position last) (remaining position after xs) := by
    simp only [remaining, List.filter_filter]
    refine List.filter_congr fun y _ => ?_
    by_cases behind : position last < position y
    · simp [behind, Nat.lt_trans later behind]
    · simp [behind]
  have ordered : (page ++ rest).Pairwise fun x y => position x < position y :=
    split ▸ sorted.sublist List.filter_sublist
  obtain ⟨inside, -, across⟩ := List.pairwise_append.mp ordered
  have done : remaining position (position last) page = [] := by
    refine List.filter_eq_nil_iff.mpr fun y hy => ?_
    simpa using position_le_last inside hl hy
  have open_ : remaining position (position last) rest = rest := by
    refine List.filter_eq_self.mpr fun y hy => ?_
    simpa using across last (List.mem_of_getLast? hl) y hy
  rw [narrow, split, remaining, List.filter_append]
  exact (congrArg₂ _ done open_).trans (List.nil_append rest)

/-- Pages of a strictly sorted list are read to its end and give back the list behind the
cursor, whatever the page size. -/
theorem readAll_eq {fetch : Nat → Except ε (List α)} {inconsistent : ε} {limit fuel : Nat}
    (sorted : xs.Pairwise fun x y => position x < position y) (hl : xs.getLast? = some last)
    (fetched : ∀ cursor, cursor < position last →
      fetch cursor = .ok ((remaining position cursor xs).take limit))
    (positive : 0 < limit) (start : after ≤ position last)
    (enough : (remaining position after xs).length < fuel) :
    readAll position fetch inconsistent (position last) fuel after =
      some (.ok (remaining position after xs)) := by
  induction fuel generalizing after with
  | zero => omega
  | succ fuel ih =>
    unfold readAll
    split
    next before =>
      have split := List.take_append_drop limit (remaining position after xs)
      have member : last ∈ remaining position after xs :=
        mem_remaining.mpr ⟨List.mem_of_getLast? hl, before⟩
      have some_ : 0 < (remaining position after xs).length := List.length_pos_of_mem member
      have nonempty : (remaining position after xs).take limit ≠ [] := by
        refine List.ne_nil_of_length_pos ?_
        rw [List.length_take]
        omega
      obtain ⟨y, hy⟩ := Option.isSome_iff_exists.mp (List.getLast?_isSome.mpr nonempty)
      have next := remaining_of_page sorted split.symm hy
      have within : y ∈ xs :=
        (mem_remaining.mp (List.mem_of_mem_take (List.mem_of_getLast? hy))).1
      have tail := ih (position_le_last sorted hl within) (by
        rw [next, List.length_drop]
        omega)
      simp only [fetched after before, hy, tail, next, Option.map_some, Except.map, split]
    next stop =>
      have reached : after = position last := by omega
      have none_ : remaining position after xs = [] := by
        refine List.filter_eq_nil_iff.mpr fun y hy => ?_
        simpa [reached] using position_le_last sorted hl hy
      rw [if_pos reached, none_]

section Collect

open FallibleRun

variable {ε α β γ ρ : Type}

/-- Read page after page until one is short, and convert the entries of each; the cursor moves to the
last entry of the page. -/
def collect (cursorOf : α → γ) (fetch : γ → Except ε (List α)) (convert : α → Except ε β) (limit : Nat) :
    Nat → γ → Option (Except ε (List β))
  | 0, _ => none
  | fuel + 1, cursor =>
    match fetch cursor with
    | .error e => some (.error e)
    | .ok page =>
      match page.mapM convert with
      | .error e => some (.error e)
      | .ok converted =>
        if page.length < limit then some (.ok converted)
        else
          (collect cursorOf fetch convert limit fuel ((page.getLast?.map cursorOf).getD cursor)).map
            fun tail => tail.map fun entries => converted ++ entries

/-- What is fetched are the rows behind the entries read so far: up to the limit, of which some more may
have been looked at. -/
def PagesOf (rows : List ρ) (decode : ρ → Except ε α) (cursorOf : α → γ)
    (fetch : γ → Except ε (List α)) (limit ahead : Nat) (start : γ) : Prop :=
  ∀ front back entries, rows = front ++ back → front.mapM decode = .ok entries →
    fetch ((entries.getLast?.map cursorOf).getD start) =
      ((back.take (limit + ahead)).mapM decode).map (List.take limit)

theorem mapM_append_ok_iff {f : ρ → Except ε α} {xs ys : List ρ} {zs : List α} :
    (xs ++ ys).mapM f = .ok zs ↔
      ∃ before after, xs.mapM f = .ok before ∧ ys.mapM f = .ok after ∧ zs = before ++ after := by
  rw [List.mapM_append]
  constructor
  · intro h
    obtain ⟨before, first, h⟩ := bind_eq_ok_iff.mp h
    obtain ⟨after, second, h⟩ := bind_eq_ok_iff.mp h
    cases h
    exact ⟨before, after, first, second, rfl⟩
  · rintro ⟨before, after, first, second, rfl⟩
    rw [first, second]
    rfl

theorem length_of_mapM {f : ρ → Except ε α} {xs : List ρ} {zs : List α} (h : xs.mapM f = .ok zs) :
    zs.length = xs.length := by
  have same : zs.map (fun _ => ()) = xs.map fun _ => () := mapM_map h fun _ _ _ _ => rfl
  simpa using congrArg List.length same

theorem mapM_take {f : ρ → Except ε α} {xs : List ρ} {zs : List α} (h : xs.mapM f = .ok zs) (n : Nat) :
    (xs.take n).mapM f = .ok (zs.take n) := by
  rw [← List.take_append_drop n xs] at h
  obtain ⟨before, after, first, second, rfl⟩ := mapM_append_ok_iff.mp h
  have short := length_of_mapM first
  rw [List.length_take] at short
  rw [first]
  by_cases within : n ≤ xs.length
  · have exactly : before.length = n := by omega
    rw [← exactly, List.take_left]
  · rw [List.drop_eq_nil_of_le (by omega)] at second
    cases second
    have all : before.length ≤ n := by omega
    simp [List.take_of_length_le all]

variable {rows front back : List ρ} {decode : ρ → Except ε α} {cursorOf : α → γ}
  {fetch : γ → Except ε (List α)} {convert : α → Except ε β} {start : γ} {limit ahead : Nat}

/-- Whatever was read so far, the reading ends, and it succeeds exactly when every row that is left can
be read and converted. -/
theorem collect_behind (pages : PagesOf rows decode cursorOf fetch limit ahead start) (positive : 0 < limit)
    {entries : List α} (split : rows = front ++ back) (read : front.mapM decode = .ok entries) {fuel : Nat}
    (enough : back.length < fuel) :
    ∃ result, collect cursorOf fetch convert limit fuel ((entries.getLast?.map cursorOf).getD start) =
        some result ∧
      ∀ out, result = .ok out ↔
        ∃ found, back.mapM decode = .ok found ∧ found.mapM convert = .ok out := by
  induction fuel generalizing front back entries with
  | zero => omega
  | succ fuel ih =>
    have parts := List.take_append_drop (limit + ahead) back
    unfold collect
    rw [pages front back entries split read]
    cases looked : (back.take (limit + ahead)).mapM decode with
    | error e =>
      refine ⟨.error e, rfl, fun out => ⟨fun h => (by cases h), ?_⟩⟩
      rintro ⟨found, all, -⟩
      rw [← parts] at all
      obtain ⟨before, -, first, -⟩ := mapM_append_ok_iff.mp all
      rw [looked] at first
      cases first
    | ok seen =>
      have seenLength := length_of_mapM looked
      rw [List.length_take] at seenLength
      have taken : (back.take limit).mapM decode = .ok (seen.take limit) := by
        have shorter := mapM_take looked limit
        rwa [List.take_take, Nat.min_eq_left (Nat.le_add_right limit ahead)] at shorter
      have pageLength : (seen.take limit).length = min limit back.length :=
        (length_of_mapM taken).trans List.length_take
      dsimp only [Except.map]
      cases converts : (seen.take limit).mapM convert with
      | error e =>
        refine ⟨.error e, rfl, fun out => ⟨fun h => (by cases h), ?_⟩⟩
        rintro ⟨found, all, done⟩
        rw [← List.take_append_drop limit back] at all
        obtain ⟨before, after, first, -, rfl⟩ := mapM_append_ok_iff.mp all
        rw [taken] at first
        cases first
        obtain ⟨before', after', first, -, -⟩ := mapM_append_ok_iff.mp done
        rw [converts] at first
        cases first
      | ok converted =>
        dsimp only
        split
        next short =>
          have rest : back.length < limit := by omega
          rw [List.take_of_length_le (by omega)] at taken
          refine ⟨.ok converted, rfl, fun out => ⟨?_, ?_⟩⟩
          · rintro ⟨⟩
            exact ⟨_, taken, converts⟩
          · rintro ⟨found, all, done⟩
            rw [taken] at all
            cases all
            rw [converts] at done
            exact done
        next full =>
          have long : limit ≤ back.length := by omega
          have split' : rows = (front ++ back.take limit) ++ back.drop limit := by
            rw [List.append_assoc, List.take_append_drop, split]
          have read' : (front ++ back.take limit).mapM decode = .ok (entries ++ seen.take limit) :=
            mapM_append_ok_iff.mpr ⟨_, _, read, taken, rfl⟩
          obtain ⟨result, more, spec⟩ := ih split' read' (by
            rw [List.length_drop]
            omega)
          have nonempty : seen.take limit ≠ [] := List.ne_nil_of_length_pos (by omega)
          obtain ⟨last, ends⟩ := Option.isSome_iff_exists.mp (List.getLast?_isSome.mpr nonempty)
          have cursor : (((entries ++ seen.take limit).getLast?.map cursorOf).getD start) =
              ((seen.take limit).getLast?.map cursorOf).getD
                ((entries.getLast?.map cursorOf).getD start) := by
            rw [List.getLast?_append, ends]
            rfl
          rw [cursor] at more
          rw [more]
          refine ⟨_, rfl, fun out => ⟨fun done => ?_, ?_⟩⟩
          · cases result with
            | error e => cases done
            | ok later =>
              cases done
              obtain ⟨found, all, done⟩ := (spec later).mp rfl
              refine ⟨seen.take limit ++ found, ?_, mapM_append_ok_iff.mpr ⟨_, _, converts, done, rfl⟩⟩
              rw [← List.take_append_drop limit back]
              exact mapM_append_ok_iff.mpr ⟨_, _, taken, all, rfl⟩
          · rintro ⟨found, all, done⟩
            rw [← List.take_append_drop limit back] at all
            obtain ⟨before, after, first, second, rfl⟩ := mapM_append_ok_iff.mp all
            rw [taken] at first
            cases first
            obtain ⟨out', later, first, last, rfl⟩ := mapM_append_ok_iff.mp done
            rw [converts] at first
            cases first
            rw [(spec later).mpr ⟨after, second, last⟩]

/-- All pages together are all rows, each once and in their order. -/
theorem collect_spec (pages : PagesOf rows decode cursorOf fetch limit ahead start) (positive : 0 < limit)
    {fuel : Nat} (enough : rows.length < fuel) :
    ∃ result, collect cursorOf fetch convert limit fuel start = some result ∧
      ∀ out, result = .ok out ↔
        ∃ found, rows.mapM decode = .ok found ∧ found.mapM convert = .ok out :=
  collect_behind pages positive (List.nil_append rows).symm rfl enough

/-- In a list that is ordered by a relation, what is behind the last entry of a beginning is the rest. -/
theorem filter_behind {behind : ρ → ρ → Bool} (asymm : ∀ x y, behind x y = true → behind y x = false)
    (sorted : (front ++ back).Pairwise fun x y => behind x y = true) {last : ρ}
    (ends : front.getLast? = some last) : (front ++ back).filter (behind last) = back := by
  obtain ⟨init, rfl⟩ := List.getLast?_eq_some_iff.mp ends
  obtain ⟨before, -, across⟩ := List.pairwise_append.mp sorted
  have itself : behind last last = false := by
    cases self : behind last last with
    | false => rfl
    | true => exact self.symm.trans (asymm last last self)
  have done : (init ++ [last]).filter (behind last) = [] := by
    refine List.filter_eq_nil_iff.mpr fun x hx => ?_
    rw [Bool.not_eq_true]
    rcases List.mem_append.mp hx with hx | hx
    · exact asymm x last ((List.pairwise_append.mp before).2.2 x hx last (List.mem_singleton_self last))
    · rw [List.mem_singleton.mp hx, itself]
  have later : back.filter (behind last) = back := by
    refine List.filter_eq_self.mpr fun y hy => ?_
    exact across last (List.mem_append_right _ (List.mem_singleton_self last)) y hy
  rw [List.filter_append, done, later, List.nil_append]

end Collect

end Paging
