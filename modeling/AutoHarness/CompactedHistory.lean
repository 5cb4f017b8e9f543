import AutoHarness.ContextDecoder

namespace AutoHarness

section Compact

/-- The digest of the count, hash and group hashes that a history leaves out. -/
abbrev OmittedHash := Nat → Option Sha256Digest → List Sha256Digest → Sha256Digest

def newestFirst (left right : CompactedHistoryGroup) : Bool :=
  right.completedSequence < left.completedSequence ||
    (left.completedSequence = right.completedSequence && left.attemptId ≤ right.attemptId)

/-- `u32` arithmetic with its checks. -/
def checkedU32 (value : Nat) : Except AppError UInt32 :=
  if value < 4294967296 then .ok (UInt32.ofNat value) else .error .configuration

variable (json : HistoryJson) (omittedHash : OmittedHash)

/-- Drops the oldest groups until the text of the history keeps within the bytes. -/
def fitHistory (sessionId : SessionId) (cutoff : SessionSequence) (prior : Option CompactedHistoryV1)
    (compactedGroupCount : UInt32) (maxBytes : Nat) :
    (fuel : Nat) → List CompactedHistoryGroup → List Sha256Digest → Except AppError CompactedHistoryV1
  | 0, _, _ => .error .configuration
  | fuel + 1, groups, dropped =>
    match groups.getLast? with
    | none => .error .configuration
    | some oldest => do
      let previous := prior.elim 0 fun prior => prior.omittedGroupCount.toNat
      let omittedGroupCount ← checkedU32 (previous + dropped.length)
      let candidate : CompactedHistoryV1 := ⟨compactedHistoryVersion, sessionId.value, cutoff.get,
        compactedGroupCount, omittedGroupCount,
        omittedHash previous (prior.map CompactedHistoryV1.omittedGroupsHash) dropped, groups⟩
      if (json.content candidate).utf8ByteSize ≤ maxBytes then .ok candidate
      else
        fitHistory sessionId cutoff prior compactedGroupCount maxBytes fuel groups.dropLast
          ((oldest.sourceHash :: dropped).mergeSort fun left right => left.value ≤ right.value)

/-- Builds a stable newest-first bounded extractive projection over complete attempt groups. -/
def compactHistory (sessionId : SessionId) (cutoff : SessionSequence) (prior : Option CompactedHistoryV1)
    (newlyComplete : List CompactedHistoryGroup) (maxBytes : Nat) : Except AppError CompactedHistoryV1 :=
  if maxBytes = 0 ∨ (prior.any fun prior =>
      prior.sessionId ≠ sessionId.value || cutoff.get ≤ prior.cutoffSequence) = true then
    .error .configuration
  else do
    let after (group : CompactedHistoryGroup) : Bool :=
      prior.all fun prior => prior.cutoffSequence < group.completedSequence
    let kept := newlyComplete.filter fun group => group.completedSequence ≤ cutoff.get && after group
    let sorted := ((prior.elim [] CompactedHistoryV1.groups) ++ kept).mergeSort newestFirst
    let groups := sorted.destutter fun left right => left.attemptId ≠ right.attemptId
    let fresh ← checkedU32 (groups.countP after)
    let count ← checkedU32
      ((prior.elim 0 fun prior => prior.compactedGroupCount.toNat) + fresh.toNat)
    fitHistory json omittedHash sessionId cutoff prior count maxBytes groups.length groups []

end Compact

section Valid

variable {json : HistoryJson} {omittedHash : OmittedHash}

/-- What a group is when it was made of messages. -/
structure GroupMade (group : CompactedHistoryGroup) : Prop where
  attempt : (validateIdentifier group.attemptId).isOk = true
  completed : group.completedSequence ≠ 0
  filled : group.excerpts.isEmpty = false

theorem groupNew_made {hashes : MessageHashes} {attemptId : AttemptId}
    {completedSequence : SessionSequence} {messages : List ChatMessage} {group : CompactedHistoryGroup}
    (h : CompactedHistoryGroup.new hashes attemptId completedSequence messages = .ok group) :
    GroupMade group := by
  unfold CompactedHistoryGroup.new at h
  split at h
  · cases h
  · rename_i filled
    cases h
    have positive := completedSequence.positive
    refine ⟨?_, ?_, ?_⟩
    · rw [attemptId.valid]
      rfl
    · show completedSequence.get ≠ 0
      omega
    · simpa using filled

/-- Groups in their order with attempts of their own, within a cutoff. -/
structure GroupsFit (cutoff : Nat) (groups : List CompactedHistoryGroup) : Prop where
  made : ∀ group ∈ groups, GroupMade group
  within : ∀ group ∈ groups, group.completedSequence ≤ cutoff
  ordered : groups.Pairwise fun x y => y.completedSequence ≤ x.completedSequence
  distinct : (groups.map CompactedHistoryGroup.attemptId).Nodup

theorem GroupsFit.sublist {cutoff : Nat} {x y : List CompactedHistoryGroup} (sub : x.Sublist y)
    (h : GroupsFit cutoff y) : GroupsFit cutoff x where
  made group mem := h.made group (sub.subset mem)
  within group mem := h.within group (sub.subset mem)
  ordered := h.ordered.sublist sub
  distinct := h.distinct.sublist (sub.map _)

theorem validGroups_iff {cutoff prior : Nat} {seen : List String} {groups : List CompactedHistoryGroup} :
    validGroups cutoff prior seen groups = true ↔
      GroupsFit cutoff groups ∧ (∀ group ∈ groups, group.completedSequence ≤ prior) ∧
        ∀ group ∈ groups, group.attemptId ∉ seen := by
  induction groups generalizing prior seen with
  | nil =>
    have empty : GroupsFit cutoff [] := ⟨by simp, by simp, List.Pairwise.nil, List.nodup_nil⟩
    simp [validGroups, empty]
  | cons group groups ih =>
    simp only [validGroups, Bool.and_eq_true, decide_eq_true_eq, Bool.not_eq_true', ih]
    constructor
    · rintro ⟨⟨⟨⟨⟨⟨attempt, completed⟩, within⟩, before⟩, fresh⟩, filled⟩, fit, later, others⟩
      have unseen : group.attemptId ∉ seen := by simpa using fresh
      refine ⟨⟨?_, ?_, ?_, ?_⟩, ?_, ?_⟩
      · intro other mem
        rcases List.mem_cons.mp mem with rfl | mem
        · exact ⟨attempt, completed, filled⟩
        · exact fit.made other mem
      · intro other mem
        rcases List.mem_cons.mp mem with rfl | mem
        · exact within
        · exact fit.within other mem
      · exact List.pairwise_cons.mpr ⟨later, fit.ordered⟩
      · refine List.nodup_cons.mpr ⟨fun mem => ?_, fit.distinct⟩
        obtain ⟨other, there, same⟩ := List.mem_map.mp mem
        exact others other there (same ▸ List.mem_cons_self)
      · intro other mem
        rcases List.mem_cons.mp mem with rfl | mem
        · exact before
        · exact (later other mem).trans before
      · intro other mem
        rcases List.mem_cons.mp mem with rfl | mem
        · exact unseen
        · exact fun there => others other mem (List.mem_cons_of_mem _ there)
    · rintro ⟨fit, before, fresh⟩
      have here := fit.made group List.mem_cons_self
      obtain ⟨later, -⟩ := List.pairwise_cons.mp fit.ordered
      obtain ⟨apart, -⟩ := List.nodup_cons.mp fit.distinct
      refine ⟨⟨⟨⟨⟨⟨here.attempt, here.completed⟩, fit.within group List.mem_cons_self⟩,
        before group List.mem_cons_self⟩, ?_⟩, here.filled⟩,
        fit.sublist (List.sublist_cons_self group groups), later, ?_⟩
      · have unseen := fresh group List.mem_cons_self
        simpa using unseen
      · intro other mem there
        rcases List.mem_cons.mp there with same | there
        · exact apart (same ▸ List.mem_map_of_mem mem)
        · exact fresh other (List.mem_cons_of_mem _ mem) there

theorem checkedU32_ok {value : Nat} {count : UInt32} (h : checkedU32 value = .ok count) :
    count.toNat = value := by
  unfold checkedU32 at h
  split at h
  · rename_i small
    cases h
    exact UInt32.toNat_ofNat_of_lt' small
  · cases h

/-- Groups are dropped from the end and counted, and something is left. -/
theorem fitHistory_ok {sessionId : SessionId} {cutoff : SessionSequence} {prior : Option CompactedHistoryV1}
    {count : UInt32} {maxBytes fuel : Nat} {groups : List CompactedHistoryGroup}
    {dropped : List Sha256Digest} {history : CompactedHistoryV1}
    (h : fitHistory json omittedHash sessionId cutoff prior count maxBytes fuel groups dropped =
      .ok history) :
    history.version = compactedHistoryVersion ∧ history.sessionId = sessionId.value ∧
      history.cutoffSequence = cutoff.get ∧ history.compactedGroupCount = count ∧
      history.groups ≠ [] ∧ history.groups.Sublist groups ∧
      history.groups.length + history.omittedGroupCount.toNat =
        groups.length + dropped.length + prior.elim 0 fun prior => prior.omittedGroupCount.toNat := by
  induction fuel generalizing groups dropped with
  | zero => cases h
  | succ fuel ih =>
    unfold fitHistory at h
    split at h
    · cases h
    · rename_i oldest last
      obtain ⟨omitted, counted, h⟩ := FallibleRun.bind_eq_ok_iff.mp h
      have nonempty : groups ≠ [] := by
        rintro rfl
        cases last
      dsimp only at h
      split at h
      · cases h
        have total := checkedU32_ok counted
        refine ⟨rfl, rfl, rfl, rfl, nonempty, List.Sublist.refl _, ?_⟩
        simp only [total]
        omega
      · obtain ⟨version, session, sequence, counts, filled, sub, sum⟩ := ih h
        refine ⟨version, session, sequence, counts, filled, sub.trans (List.dropLast_sublist groups), ?_⟩
        have positive := List.length_pos_iff.mpr nonempty
        rw [sum, List.length_dropLast, List.length_mergeSort, List.length_cons]
        omega

theorem newestFirst_iff {x y : CompactedHistoryGroup} :
    newestFirst x y = true ↔ y.completedSequence < x.completedSequence ∨
      (x.completedSequence = y.completedSequence ∧ x.attemptId ≤ y.attemptId) := by
  simp [newestFirst]

theorem newestFirst_sorted (groups : List CompactedHistoryGroup) :
    (groups.mergeSort newestFirst).Pairwise fun x y => newestFirst x y = true := by
  refine List.pairwise_mergeSort ?_ ?_ groups
  · intro x y z hxy hyz
    rw [newestFirst_iff] at *
    rcases hxy with hxy | ⟨hxy, hx⟩
    · exact .inl (by omega)
    · rcases hyz with hyz | ⟨hyz, hy⟩
      · exact .inl (by omega)
      · exact .inr ⟨by omega, hx.trans hy⟩
  · intro x y
    rw [Bool.or_eq_true, newestFirst_iff, newestFirst_iff]
    rcases Nat.lt_trichotomy x.completedSequence y.completedSequence with h | h | h
    · exact .inr (.inl h)
    · rcases le_total x.attemptId y.attemptId with ha | ha
      · exact .inl (.inr ⟨h, ha⟩)
      · exact .inr (.inr ⟨h.symm, ha⟩)
    · exact .inl (.inl h)

/-- No attempt has two different groups. -/
def OneGroupEach (groups : List CompactedHistoryGroup) : Prop :=
  ∀ x ∈ groups, ∀ y ∈ groups, x.attemptId = y.attemptId → x = y

/-- A later completion, or an earlier attempt among those that completed together. -/
def Newer (x y : CompactedHistoryGroup) : Prop :=
  y.completedSequence < x.completedSequence ∨
    (x.completedSequence = y.completedSequence ∧ x.attemptId < y.attemptId)

theorem Newer.ne {x y : CompactedHistoryGroup} (h : Newer x y) : x ≠ y := by
  rintro rfl
  rcases h with h | ⟨-, h⟩
  · exact absurd h (Nat.lt_irrefl _)
  · exact absurd h (lt_irrefl _)

theorem Newer.sequence {x y : CompactedHistoryGroup} (h : Newer x y) :
    y.completedSequence ≤ x.completedSequence := by
  rcases h with h | ⟨h, -⟩
  · exact h.le
  · exact h.ge

/-- The groups of a compaction, every one once and the newest first. -/
def newestGroups (groups : List CompactedHistoryGroup) : List CompactedHistoryGroup :=
  (groups.mergeSort newestFirst).destutter fun left right => left.attemptId ≠ right.attemptId

section Newest

variable {groups : List CompactedHistoryGroup} (one : OneGroupEach groups)

include one

theorem newestGroups_eq_dedup : newestGroups groups = (groups.mergeSort newestFirst).dedup := by
  have listed : ∀ x ∈ groups.mergeSort newestFirst, x ∈ groups :=
    fun x mem => (List.mergeSort_perm groups newestFirst).mem_iff.mp mem
  have distinct : newestGroups groups = (groups.mergeSort newestFirst).destutter (· ≠ ·) := by
    have same : (newestGroups groups).map id =
        ((groups.mergeSort newestFirst).map id).destutter (· ≠ ·) := by
      refine List.map_destutter fun x hx y hy => ?_
      exact not_congr ⟨one x (listed x hx) y (listed y hy), congrArg CompactedHistoryGroup.attemptId⟩
    rwa [List.map_id, List.map_id] at same
  let before (x y : CompactedHistoryGroup) : Prop :=
    newestFirst x y = true ∧ (x.attemptId = y.attemptId → x = y)
  have antisymm : Std.Antisymm before := by
    refine ⟨fun x y hxy hyx => hxy.2 ?_⟩
    have forth := newestFirst_iff.mp hxy.1
    have back := newestFirst_iff.mp hyx.1
    rcases forth with forth | ⟨forth, hx⟩
    · rcases back with back | ⟨back, -⟩ <;> omega
    · rcases back with back | ⟨-, hy⟩
      · omega
      · exact le_antisymm hx hy
  have sorted : (groups.mergeSort newestFirst).Pairwise before :=
    (newestFirst_sorted groups).imp_of_mem fun {x y} hx hy ordered =>
      ⟨ordered, one x (listed x hx) y (listed y hy)⟩
  rw [distinct, sorted.destutter_eq_dedup]

theorem mem_newestGroups {group : CompactedHistoryGroup} :
    group ∈ newestGroups groups ↔ group ∈ groups := by
  rw [newestGroups_eq_dedup one, List.mem_dedup, (List.mergeSort_perm groups newestFirst).mem_iff]

theorem newestGroups_newest : (newestGroups groups).Pairwise Newer := by
  have nodup : (newestGroups groups).Nodup := newestGroups_eq_dedup one ▸ List.nodup_dedup _
  have sorted : (newestGroups groups).Pairwise fun x y => newestFirst x y = true :=
    (newestFirst_sorted groups).sublist (List.destutter_sublist _ _)
  refine (nodup.and sorted).imp_of_mem ?_
  intro x y hx hy ⟨apart, ordered⟩
  rcases newestFirst_iff.mp ordered with later | ⟨together, first⟩
  · exact .inl later
  · refine .inr ⟨together, lt_of_le_of_ne first fun same => apart ?_⟩
    exact one x ((mem_newestGroups one).mp hx) y ((mem_newestGroups one).mp hy) same

theorem newestGroups_fit {cutoff : Nat}
    (made : ∀ group ∈ groups, GroupMade group ∧ group.completedSequence ≤ cutoff) :
    GroupsFit cutoff (newestGroups groups) where
  made group mem := (made group ((mem_newestGroups one).mp mem)).1
  within group mem := (made group ((mem_newestGroups one).mp mem)).2
  ordered := (newestGroups_newest one).imp Newer.sequence
  distinct := by
    refine List.pairwise_map.mpr ((newestGroups_newest one).imp_of_mem ?_)
    intro x y hx hy newer same
    exact newer.ne (one x ((mem_newestGroups one).mp hx) y ((mem_newestGroups one).mp hy) same)

end Newest

theorem validate_iff {history : CompactedHistoryV1} (bounded : history.cutoffSequence ≤ maxSequence) :
    validateCompactedHistory history = true ↔
      history.version = compactedHistoryVersion ∧ history.cutoffSequence ≠ 0 ∧
      (validateIdentifier history.sessionId).isOk = true ∧
      history.compactedGroupCount.toNat =
        history.groups.length + history.omittedGroupCount.toNat ∧
      history.groups ≠ [] ∧ GroupsFit history.cutoffSequence history.groups := by
  have trivial (fit : GroupsFit history.cutoffSequence history.groups) :
      ∀ group ∈ history.groups, group.completedSequence ≤ 18446744073709551615 := by
    intro group mem
    have := fit.within group mem
    rw [maxSequence] at bounded
    omega
  simp only [validateCompactedHistory, Bool.and_eq_true, decide_eq_true_eq, Bool.not_eq_true',
    List.isEmpty_eq_false_iff, validGroups_iff, List.not_mem_nil, not_false_eq_true, implies_true, and_true]
  constructor
  · rintro ⟨⟨⟨⟨⟨h1, h2⟩, h3⟩, h4⟩, h5⟩, h6, -⟩
    exact ⟨h1, h2, h3, h4, h5, h6⟩
  · rintro ⟨h1, h2, h3, h4, h5, h6⟩
    exact ⟨⟨⟨⟨⟨h1, h2⟩, h3⟩, h4⟩, h5⟩, h6, trivial h6⟩

/-- What came before a compaction: the groups of a valid history and the counts it keeps. -/
theorem prior_groups {prior : Option CompactedHistoryV1}
    (valid : ∀ history ∈ prior, validateCompactedHistory history = true ∧
      history.cutoffSequence ≤ maxSequence) :
    (∀ history ∈ prior, GroupsFit history.cutoffSequence history.groups) ∧
      (prior.elim 0 fun prior => prior.compactedGroupCount.toNat) =
        (prior.elim [] CompactedHistoryV1.groups).length +
          prior.elim 0 fun prior => prior.omittedGroupCount.toNat := by
  cases prior with
  | none => simp
  | some history =>
    obtain ⟨checked, bounded⟩ := valid history rfl
    obtain ⟨-, -, -, counts, -, fit⟩ := (validate_iff bounded).mp checked
    refine ⟨?_, counts⟩
    intro other same
    cases same
    exact fit

/-- A group of the history before stands in it, or it was completed since and up to the cutoff. -/
def retainedGroups (cutoff : SessionSequence) (prior : Option CompactedHistoryV1)
    (newly : List CompactedHistoryGroup) : List CompactedHistoryGroup :=
  (prior.elim [] CompactedHistoryV1.groups) ++ newly.filter fun group =>
    group.completedSequence ≤ cutoff.get &&
      prior.all fun prior => prior.cutoffSequence < group.completedSequence

theorem OneGroupEach.retained {cutoff : SessionSequence} {prior : Option CompactedHistoryV1}
    {newly : List CompactedHistoryGroup}
    (one : OneGroupEach ((prior.elim [] CompactedHistoryV1.groups) ++ newly)) :
    OneGroupEach (retainedGroups cutoff prior newly) := by
  have listed : ∀ group ∈ retainedGroups cutoff prior newly,
      group ∈ (prior.elim [] CompactedHistoryV1.groups) ++ newly :=
    ((List.Sublist.refl _).append List.filter_sublist).subset
  exact fun x hx y hy => one x (listed x hx) y (listed y hy)

theorem oneGroupEach_of_nodup {groups : List CompactedHistoryGroup}
    (distinct : (groups.map CompactedHistoryGroup.attemptId).Nodup) : OneGroupEach groups :=
  fun _ hx _ hy same => List.inj_on_of_nodup_map distinct hx hy same

/-- What a compaction that succeeds has checked and counted. -/
theorem compactHistory_ok {sessionId : SessionId} {cutoff : SessionSequence}
    {prior : Option CompactedHistoryV1} {newly : List CompactedHistoryGroup} {maxBytes : Nat}
    {history : CompactedHistoryV1}
    (h : compactHistory json omittedHash sessionId cutoff prior newly maxBytes = .ok history) :
    (∀ before ∈ prior, before.cutoffSequence < cutoff.get) ∧
      ∃ count : UInt32,
        count.toNat = (prior.elim 0 fun prior => prior.compactedGroupCount.toNat) +
          (newestGroups (retainedGroups cutoff prior newly)).countP (fun group =>
            prior.all fun prior => prior.cutoffSequence < group.completedSequence) ∧
        fitHistory json omittedHash sessionId cutoff prior count maxBytes
          (newestGroups (retainedGroups cutoff prior newly)).length
          (newestGroups (retainedGroups cutoff prior newly)) [] = .ok history := by
  unfold compactHistory at h
  split at h
  · cases h
  rename_i admitted
  obtain ⟨-, current⟩ := not_or.mp admitted
  dsimp only at h
  obtain ⟨fresh, counted, h⟩ := FallibleRun.bind_eq_ok_iff.mp h
  obtain ⟨count, summed, h⟩ := FallibleRun.bind_eq_ok_iff.mp h
  refine ⟨?_, count, ?_, h⟩
  · rintro before rfl
    have late : ¬ cutoff.get ≤ before.cutoffSequence := fun late => current (by simp [late])
    omega
  · rw [checkedU32_ok summed, checkedU32_ok counted]
    rfl

/-- Among the groups of a compaction those of the valid history before it are the ones that its cutoff
covers. -/
theorem retainedGroups_spec {cutoff : SessionSequence} {prior : Option CompactedHistoryV1}
    {newly : List CompactedHistoryGroup}
    (valid : ∀ history ∈ prior, validateCompactedHistory history = true ∧
      history.cutoffSequence ≤ maxSequence)
    (made : ∀ group ∈ newly, GroupMade group)
    (current : ∀ before ∈ prior, before.cutoffSequence < cutoff.get) :
    ∀ group ∈ retainedGroups cutoff prior newly,
      (GroupMade group ∧ group.completedSequence ≤ cutoff.get) ∧
        ((prior.all fun prior => prior.cutoffSequence < group.completedSequence) = false ↔
          group ∈ prior.elim [] CompactedHistoryV1.groups) := by
  obtain ⟨fits, -⟩ := prior_groups valid
  have covered : ∀ group ∈ prior.elim [] CompactedHistoryV1.groups,
      GroupMade group ∧ group.completedSequence ≤ cutoff.get ∧
        (prior.all fun prior => prior.cutoffSequence < group.completedSequence) = false := by
    intro group mem
    cases prior with
    | none => exact absurd mem List.not_mem_nil
    | some history =>
      have within := (fits history rfl).within group mem
      have later := current history rfl
      have early : ¬ history.cutoffSequence < group.completedSequence := by omega
      exact ⟨(fits history rfl).made group mem, by omega, by simpa using early⟩
  intro group mem
  rcases List.mem_append.mp mem with mem | mem
  · obtain ⟨whole, within, early⟩ := covered group mem
    exact ⟨⟨whole, within⟩, fun _ => mem, fun _ => early⟩
  · obtain ⟨listed, passes⟩ := List.mem_filter.mp mem
    obtain ⟨within, later⟩ := Bool.and_eq_true_iff.mp passes
    refine ⟨⟨made group listed, of_decide_eq_true within⟩, ?_, ?_⟩
    · intro early
      exact absurd later (by rw [early]; exact Bool.false_ne_true)
    · exact fun there => (covered group there).2.2

theorem nodup_of_fit {cutoff : Nat} {groups : List CompactedHistoryGroup} (fit : GroupsFit cutoff groups) :
    groups.Nodup :=
  List.Nodup.of_map _ fit.distinct

/-- Every group of a compaction is a group of the history before or is counted as a new one. -/
theorem newestGroups_counted {cutoff : SessionSequence} {prior : Option CompactedHistoryV1}
    {newly : List CompactedHistoryGroup}
    (valid : ∀ history ∈ prior, validateCompactedHistory history = true ∧
      history.cutoffSequence ≤ maxSequence)
    (made : ∀ group ∈ newly, GroupMade group)
    (one : OneGroupEach (retainedGroups cutoff prior newly))
    (current : ∀ before ∈ prior, before.cutoffSequence < cutoff.get) :
    (newestGroups (retainedGroups cutoff prior newly)).length =
      (prior.elim [] CompactedHistoryV1.groups).length +
        (newestGroups (retainedGroups cutoff prior newly)).countP (fun group =>
          prior.all fun prior => prior.cutoffSequence < group.completedSequence) := by
  let all := newestGroups (retainedGroups cutoff prior newly)
  let after (group : CompactedHistoryGroup) : Bool :=
    prior.all fun prior => prior.cutoffSequence < group.completedSequence
  have spec := retainedGroups_spec valid made current
  have nodup : all.Nodup := (newestGroups_newest one).imp Newer.ne
  have oldNodup : (prior.elim [] CompactedHistoryV1.groups).Nodup := by
    cases prior with
    | none => exact List.nodup_nil
    | some history => exact nodup_of_fit ((prior_groups valid).1 history rfl)
  have old : (all.filter fun group => !after group).Perm (prior.elim [] CompactedHistoryV1.groups) := by
    rw [List.perm_ext_iff_of_nodup (nodup.filter _) oldNodup]
    intro group
    rw [List.mem_filter, mem_newestGroups one, Bool.not_eq_true']
    constructor
    · exact fun h => (spec group h.1).2.mp h.2
    · intro mem
      have listed : group ∈ retainedGroups cutoff prior newly := List.mem_append_left _ mem
      exact ⟨listed, (spec group listed).2.mpr mem⟩
  have split : all.length = all.countP after + all.countP fun group => decide ¬ after group = true :=
    List.length_eq_countP_add_countP after
  have rest : all.countP (fun group => decide ¬ after group = true) =
      (prior.elim [] CompactedHistoryV1.groups).length := by
    rw [← old.length_eq, List.countP_eq_length_filter]
    congr 2
    funext group
    cases after group <;> rfl
  show all.length = _ + all.countP after
  omega

/-- A history made of a valid one and of new groups, every attempt with one group, is valid. -/
theorem compactHistory_valid {sessionId : SessionId} {cutoff : SessionSequence}
    {prior : Option CompactedHistoryV1} {newly : List CompactedHistoryGroup} {maxBytes : Nat}
    {history : CompactedHistoryV1}
    (valid : ∀ history ∈ prior, validateCompactedHistory history = true ∧
      history.cutoffSequence ≤ maxSequence)
    (made : ∀ group ∈ newly, GroupMade group)
    (one : OneGroupEach (retainedGroups cutoff prior newly))
    (h : compactHistory json omittedHash sessionId cutoff prior newly maxBytes = .ok history) :
    validateCompactedHistory history = true := by
  obtain ⟨-, counts⟩ := prior_groups valid
  obtain ⟨current, count, counted, h⟩ := compactHistory_ok h
  have spec := retainedGroups_spec valid made current
  have fit := newestGroups_fit one fun group mem => (spec group mem).1
  have length := newestGroups_counted valid made one current
  obtain ⟨version, session, sequence, total, filled, sub, sum⟩ := fitHistory_ok h
  refine (validate_iff (by rw [sequence]; exact cutoff.bounded)).mpr
    ⟨version, ?_, ?_, ?_, filled, ?_⟩
  · rw [sequence]
    have := cutoff.positive
    omega
  · rw [session, sessionId.valid]
    rfl
  · rw [total, counted, counts, sum, length]
    simp only [List.length_nil]
    omega
  · rw [sequence]
    exact fit.sublist sub

end Valid

end AutoHarness
