import AutoHarness.SlidingWindow
import Mathlib.Algebra.Order.Group.Nat
import Mathlib.Data.List.TakeWhile
import Mathlib.Logic.Function.Basic

namespace AutoHarness

open SlidingWindow (Bounded within)

section Limiter

/-- The request count and the accounting window, in ticks of the monotonic clock. -/
structure RatePolicy where
  rateLimitRequests : Nat
  rateLimitWindow : Nat
  requestsNonzero : 0 < rateLimitRequests
  windowNonzero : 0 < rateLimitWindow

/-- The critical section of one round: what is left of the window, and the wait unless admitted. -/
def admitRate (policy : RatePolicy) (now : Nat) (requests : List Nat) : List Nat × Option Nat :=
  let kept := requests.dropWhile fun started => policy.rateLimitWindow ≤ now - started
  if kept.length < policy.rateLimitRequests then (kept ++ [now], none)
  else (kept, some (kept.head?.elim 0 fun started => policy.rateLimitWindow - (now - started)))

/-- One finished round: the clock reading it used, when its critical section ran, and its wait. -/
structure RateRound where
  reading : Nat
  ran : Nat
  wait : Option Nat
deriving DecidableEq

/-- The window that the callers share, the readings not yet used, and the finished rounds. -/
structure RateState (κ : Type) where
  clock : Nat
  readings : κ → Option Nat
  rateWindow : List Nat
  rounds : List RateRound

def RateState.new (κ : Type) : RateState κ := ⟨0, fun _ => none, [], []⟩

def RateState.admissions {κ : Type} (s : RateState κ) : List RateRound :=
  s.rounds.filter fun round => round.wait.isNone

/-- A caller reads the clock, or runs its critical section, at the time given. -/
inductive RateEvent (κ : Type) where
  | read (caller : κ) (time : Nat)
  | enter (caller : κ) (time : Nat)

def RateEvent.time {κ : Type} : RateEvent κ → Nat
  | .read _ time => time
  | .enter _ time => time

variable {κ : Type} [DecidableEq κ]

def rateStep (policy : RatePolicy) (s : RateState κ) : RateEvent κ → Option (RateState κ)
  | .read caller time =>
    if s.clock ≤ time then
      some { s with clock := time, readings := Function.update s.readings caller (some time) }
    else none
  | .enter caller time =>
    if s.clock ≤ time then
      (s.readings caller).map fun now =>
        let (requests, wait) := admitRate policy now s.rateWindow
        ⟨time, Function.update s.readings caller none, requests, s.rounds ++ [⟨now, time, wait⟩]⟩
    else none

/-- States that the callers reach when every step meets a condition on the state before it. -/
inductive RateReached (policy : RatePolicy) (allowed : RateState κ → RateEvent κ → Prop) :
    RateState κ → Prop
  | start : RateReached policy allowed (.new κ)
  | step {s s' : RateState κ} {event : RateEvent κ} (reached : RateReached policy allowed s)
      (may : allowed s event) (moved : rateStep policy s event = some s') :
      RateReached policy allowed s'

end Limiter

section Claims

variable {κ : Type}

/-- No window holds more admissions than the policy allows. -/
def RateBounded (policy : RatePolicy) (s : RateState κ) : Prop :=
  Bounded policy.rateLimitRequests policy.rateLimitWindow (s.admissions.map RateRound.ran)

/-- How many admissions carry a stamp in the window that ends at a reading. -/
def recordedBefore (policy : RatePolicy) (reading : Nat) (rounds : List RateRound) : Nat :=
  rounds.countP fun round =>
    round.wait.isNone && decide (reading < round.reading + policy.rateLimitWindow) &&
      decide (round.reading ≤ reading)

/-- A round waits only on a full window. -/
def WaitsJustified (policy : RatePolicy) (s : RateState κ) : Prop :=
  ∀ before round after, s.rounds = before ++ round :: after → round.wait ≠ none →
    policy.rateLimitRequests ≤ recordedBefore policy round.reading before

/-- The critical section finds no stamp later than its reading, and every admission that its reading
puts out of the window did run a whole window ago. -/
def Timely (policy : RatePolicy) (s : RateState κ) : RateEvent κ → Prop
  | .read _ _ => True
  | .enter caller time => ∀ now, s.readings caller = some now →
      (∀ started ∈ s.rateWindow, started ≤ now) ∧
      ∀ round ∈ s.admissions, round.reading + policy.rateLimitWindow ≤ now →
        round.ran + policy.rateLimitWindow ≤ time

end Claims

section Invariant

variable {κ : Type} {policy : RatePolicy}

/-- The queue holds the stamps of the latest admissions, and those before ran a window ago. -/
structure RateInvariant (policy : RatePolicy) (s : RateState κ) : Prop where
  recorded : ∃ early late, s.admissions = early ++ late ∧ late.map RateRound.reading = s.rateWindow ∧
    ∀ round ∈ early, round.ran + policy.rateLimitWindow ≤ s.clock
  ordered : s.rateWindow.Pairwise (· ≤ ·)
  bounded : RateBounded policy s
  justified : WaitsJustified policy s

theorem rateInvariant_new : RateInvariant policy (RateState.new κ) where
  recorded := ⟨[], [], rfl, rfl, by simp⟩
  ordered := List.Pairwise.nil
  bounded := SlidingWindow.bounded_nil _ _
  justified := by
    intro before round after h
    simp [RateState.new] at h

theorem admissions_append (rounds : List RateRound) (clock : Nat) (readings : κ → Option Nat)
    (rateWindow : List Nat) (round : RateRound) :
    (RateState.mk clock readings rateWindow (rounds ++ [round])).admissions =
      rounds.filter (fun round => round.wait.isNone) ++
        if round.wait.isNone then [round] else [] := by
  simp only [RateState.admissions, List.filter_append]
  congr 1
  cases hw : round.wait.isNone <;> simp [hw]

/-- What the trimming keeps lies in the window of the reading. -/
theorem kept_recent {policy : RatePolicy} {now : Nat} {requests : List Nat}
    (ordered : requests.Pairwise (· ≤ ·)) :
    ∀ started ∈ requests.dropWhile fun started => policy.rateLimitWindow ≤ now - started,
      now < started + policy.rateLimitWindow := by
  have hall := SlidingWindow.forall_dropWhile
    (p := fun started => decide (policy.rateLimitWindow ≤ now - started)) ordered
    (fun x _ y _ hxy hx => by
      have hx := of_decide_eq_false hx
      exact decide_eq_false (by omega))
  intro started hm
  have h := of_decide_eq_false (hall started hm)
  omega

/-- The trimming cuts the recorded admissions in two. -/
theorem trimmed_split (policy : RatePolicy) (now : Nat) (late : List RateRound) :
    ∃ dropped kept, late = dropped ++ kept ∧
      kept.map RateRound.reading = (late.map RateRound.reading).dropWhile
        (fun started => policy.rateLimitWindow ≤ now - started) ∧
      ∀ round ∈ dropped, policy.rateLimitWindow ≤ now - round.reading := by
  refine ⟨late.takeWhile fun round => policy.rateLimitWindow ≤ now - round.reading,
    late.dropWhile fun round => policy.rateLimitWindow ≤ now - round.reading,
    List.takeWhile_append_dropWhile.symm, ?_, ?_⟩
  · rw [List.dropWhile_map]
    rfl
  · intro round hm
    have hp := List.mem_takeWhile_imp hm
    simpa using hp

variable {s : RateState κ}

/-- What a critical section finds when it is timely. -/
theorem RateInvariant.at_section (h : RateInvariant policy s) {now time : Nat}
    (clock : s.clock ≤ time) (past : ∀ started ∈ s.rateWindow, started ≤ now)
    (timely : ∀ round ∈ s.admissions, round.reading + policy.rateLimitWindow ≤ now →
      round.ran + policy.rateLimitWindow ≤ time) :
    ∃ early late, s.admissions = early ++ late ∧
      late.map RateRound.reading =
        s.rateWindow.dropWhile (fun started => policy.rateLimitWindow ≤ now - started) ∧
      (∀ round ∈ early, round.ran + policy.rateLimitWindow ≤ time) ∧
      ∀ round ∈ late, round.reading ≤ now ∧ now < round.reading + policy.rateLimitWindow := by
  obtain ⟨early, late, split, stamps, old⟩ := h.recorded
  obtain ⟨dropped, kept, hlate, hkept, hdropped⟩ :=
    trimmed_split policy now late
  rw [stamps] at hkept
  refine ⟨early ++ dropped, kept, by rw [split, hlate, List.append_assoc], hkept, ?_, ?_⟩
  · intro round hm
    rcases List.mem_append.mp hm with hm | hm
    · have hold := old round hm
      omega
    · have hgone := hdropped round hm
      have hin : round ∈ s.admissions := by
        rw [split, hlate]
        simp [hm]
      have hpos := policy.windowNonzero
      exact timely round hin (by omega)
  · intro round hm
    have hstamp : round.reading ∈ s.rateWindow.dropWhile
        (fun started => policy.rateLimitWindow ≤ now - started) := by
      rw [← hkept]
      exact List.mem_map_of_mem hm
    exact ⟨past _ ((List.dropWhile_sublist _).subset hstamp), kept_recent h.ordered _ hstamp⟩

theorem WaitsJustified.append {round : RateRound} {t : RateState κ}
    (h : WaitsJustified policy s) (same : t.rounds = s.rounds ++ [round])
    (full : round.wait ≠ none →
      policy.rateLimitRequests ≤ recordedBefore policy round.reading s.rounds) :
    WaitsJustified policy t := by
  intro before other after split waits
  rw [same] at split
  rcases List.eq_nil_or_concat after with rfl | ⟨front, last, rfl⟩
  · obtain ⟨hb, hr⟩ := List.append_inj' split rfl
    cases hr
    rw [← hb]
    exact full waits
  · rw [List.concat_eq_append, ← List.cons_append, ← List.append_assoc] at split
    obtain ⟨hb, -⟩ := List.append_inj' split rfl
    exact h before other front hb waits

/-- A timely critical section keeps the invariant. -/
theorem RateInvariant.enter (h : RateInvariant policy s) {now time : Nat}
    (readings : κ → Option Nat) (clock : s.clock ≤ time)
    (past : ∀ started ∈ s.rateWindow, started ≤ now)
    (timely : ∀ round ∈ s.admissions, round.reading + policy.rateLimitWindow ≤ now →
      round.ran + policy.rateLimitWindow ≤ time) :
    RateInvariant policy
      ⟨time, readings, (admitRate policy now s.rateWindow).1,
        s.rounds ++ [⟨now, time, (admitRate policy now s.rateWindow).2⟩]⟩ := by
  obtain ⟨early, late, split, stamps, old, recent⟩ := h.at_section clock past timely
  have hlen : (s.rateWindow.dropWhile
      fun started => policy.rateLimitWindow ≤ now - started).length = late.length := by
    rw [← stamps, List.length_map]
  have hsorted := h.ordered.sublist
    (List.dropWhile_sublist fun started => decide (policy.rateLimitWindow ≤ now - started))
  by_cases hroom : late.length < policy.rateLimitRequests
  · -- the section admits its caller
    have hkept : admitRate policy now s.rateWindow = (late.map RateRound.reading ++ [now], none) := by
      simp only [admitRate, hlen, if_pos hroom, stamps]
    rw [hkept]
    have hadmissions : (RateState.mk time readings (late.map RateRound.reading ++ [now])
        (s.rounds ++ [⟨now, time, none⟩])).admissions = s.admissions ++ [⟨now, time, none⟩] :=
      admissions_append s.rounds time readings _ _
    have hcount : (s.admissions.map RateRound.ran).countP
        (fun ran => time < ran + policy.rateLimitWindow) < policy.rateLimitRequests := by
      have hearly : early.countP ((fun ran => decide (time < ran + policy.rateLimitWindow)) ∘
          RateRound.ran) = 0 := by
        rw [List.countP_eq_zero]
        intro round hm
        have hold := old round hm
        simp only [Function.comp_apply, decide_eq_true_eq]
        omega
      have hlate : late.countP ((fun ran => decide (time < ran + policy.rateLimitWindow)) ∘
          RateRound.ran) ≤ late.length := List.countP_le_length
      rw [List.countP_map, split, List.countP_append]
      omega
    refine ⟨⟨early, late ++ [⟨now, time, none⟩], ?_, by simp, old⟩, ?_, ?_, ?_⟩
    · rw [hadmissions, split, List.append_assoc]
    · refine List.pairwise_append.mpr ⟨stamps ▸ hsorted, List.pairwise_singleton _ _, ?_⟩
      intro started hs last hl
      obtain ⟨round, hm, rfl⟩ := List.mem_map.mp hs
      rw [List.mem_singleton.mp hl]
      exact (recent round hm).1
    · show Bounded _ _ _
      rw [hadmissions, List.map_append]
      exact h.bounded.append hcount
    · exact h.justified.append rfl fun hw => absurd rfl hw
  · -- the window is full and the caller waits
    obtain ⟨wait, hwait⟩ : ∃ wait, admitRate policy now s.rateWindow =
        (late.map RateRound.reading, some wait) := by
      simp only [admitRate, hlen, if_neg hroom, stamps]
      exact ⟨_, rfl⟩
    rw [hwait]
    have hadmissions : (RateState.mk time readings (late.map RateRound.reading)
        (s.rounds ++ [⟨now, time, some wait⟩])).admissions = s.admissions :=
      (admissions_append s.rounds time readings _ _).trans (List.append_nil _)
    refine ⟨⟨early, late, hadmissions.trans split, rfl, old⟩, stamps ▸ hsorted, ?_, ?_⟩
    · show Bounded _ _ _
      rw [hadmissions]
      exact h.bounded
    · refine h.justified.append rfl fun _ => ?_
      have hcount : recordedBefore policy now s.rounds = s.admissions.countP fun round =>
          decide (now < round.reading + policy.rateLimitWindow) && decide (round.reading ≤ now) := by
        rw [recordedBefore, RateState.admissions, List.countP_filter]
        refine List.countP_congr fun round _ => ?_
        simp only [Bool.and_eq_true]
        tauto
      have hall : late.countP (fun round => decide (now < round.reading + policy.rateLimitWindow) &&
          decide (round.reading ≤ now)) = late.length := by
        rw [List.countP_eq_length]
        intro round hm
        have hin := recent round hm
        simp [hin.1, hin.2]
      show policy.rateLimitRequests ≤ recordedBefore policy now s.rounds
      rw [hcount, split, List.countP_append, hall]
      omega

end Invariant

section Run

variable {κ : Type} [DecidableEq κ] {policy : RatePolicy}

/-- A timely step keeps the invariant. -/
theorem RateInvariant.step {s t : RateState κ} {event : RateEvent κ} (h : RateInvariant policy s)
    (timely : Timely policy s event) (moved : rateStep policy s event = some t) :
    RateInvariant policy t := by
  cases event with
  | read caller time =>
    simp only [rateStep] at moved
    split at moved
    next clock =>
      cases moved
      obtain ⟨early, late, split, stamps, old⟩ := h.recorded
      exact ⟨⟨early, late, split, stamps, fun round hm => (old round hm).trans clock⟩, h.ordered,
        h.bounded, h.justified⟩
    next => cases moved
  | enter caller time =>
    simp only [rateStep] at moved
    split at moved
    next clock =>
      obtain ⟨now, reading, he⟩ := Option.map_eq_some_iff.mp moved
      obtain ⟨past, gone⟩ := timely now reading
      have hnext := h.enter (Function.update s.readings caller none) clock past gone
      rw [← he]
      exact hnext
    next => cases moved

/-- While every critical section is timely, no window is overfull and no caller waits in vain. -/
theorem rate_limited_of_timely (policy : RatePolicy) {s : RateState κ}
    (reached : RateReached policy (Timely policy) s) :
    RateBounded policy s ∧ WaitsJustified policy s := by
  have h : RateInvariant policy s := by
    induction reached with
    | start => exact rateInvariant_new
    | step _ timely moved ih => exact ih.step timely moved
  exact ⟨h.bounded, h.justified⟩

omit [DecidableEq κ] in
/-- A limiter whose callers read the clock inside the critical section is always timely. -/
theorem timely_of_read_inside {s : RateState κ} {caller : κ} {time : Nat}
    (h : RateInvariant policy s) (clock : s.clock ≤ time)
    (inside : ∀ round ∈ s.rounds, round.reading = round.ran)
    (sorted : ∀ round ∈ s.rounds, round.ran ≤ s.clock) (fresh : s.readings caller = some time) :
    Timely policy s (.enter caller time) := by
  intro now reading
  have hnow : time = now := Option.some.inj (fresh.symm.trans reading)
  subst hnow
  have hrounds : ∀ round ∈ s.admissions, round ∈ s.rounds := fun round hm => List.mem_of_mem_filter hm
  refine ⟨fun started hs => ?_, fun round hm gone => ?_⟩
  · obtain ⟨early, late, split, stamps, -⟩ := h.recorded
    rw [← stamps] at hs
    obtain ⟨round, hm, rfl⟩ := List.mem_map.mp hs
    have hin : round ∈ s.rounds := hrounds round (by rw [split]; simp [hm])
    rw [inside round hin]
    exact (sorted round hin).trans clock
  · rw [← inside round (hrounds round hm)]
    exact gone

section Sample

def onePerTen : RatePolicy := ⟨1, 10, Nat.one_pos, by omega⟩

theorem reached_of_events {policy : RatePolicy} {allowed : RateState Bool → RateEvent Bool → Prop}
    {s t : RateState Bool} (events : List (RateEvent Bool)) (h : RateReached policy allowed s)
    (may : ∀ s event, allowed s event)
    (run : events.foldlM (rateStep policy) s = some t) : RateReached policy allowed t := by
  induction events generalizing s with
  | nil =>
    cases run
    exact h
  | cons event events ih =>
    rw [List.foldlM_cons] at run
    obtain ⟨mid, first, rest⟩ := Option.bind_eq_some_iff.mp run
    exact ih (.step h (may s event) first) rest

theorem timely_of_reading {s : RateState Bool} {caller : Bool} {time now : Nat}
    (reading : s.readings caller = some now) (past : ∀ started ∈ s.rateWindow, started ≤ now)
    (gone : ∀ round ∈ s.admissions, round.reading + 10 ≤ now → round.ran + 10 ≤ time) :
    Timely onePerTen s (.enter caller time) := by
  intro other same
  cases reading.symm.trans same
  exact ⟨past, gone⟩

theorem rate_limited_of_timely_waits :
    ∃ s : RateState Bool, s.rounds = [⟨0, 1, none⟩, ⟨5, 6, some 5⟩] ∧ RateBounded onePerTen s ∧
      WaitsJustified onePerTen s := by
  have first : RateReached onePerTen (Timely onePerTen)
      (⟨0, Function.update (fun _ => none) true (some 0), [], []⟩ : RateState Bool) :=
    .step .start (show Timely onePerTen _ (.read true 0) from trivial) rfl
  have second : RateReached onePerTen (Timely onePerTen) (⟨1, _, [0], [⟨0, 1, none⟩]⟩ : RateState Bool) :=
    .step first (show Timely onePerTen _ (.enter true 1) from
      timely_of_reading rfl (by decide) (by decide)) rfl
  have third : RateReached onePerTen (Timely onePerTen) (⟨5, _, [0], [⟨0, 1, none⟩]⟩ : RateState Bool) :=
    .step second (show Timely onePerTen _ (.read false 5) from trivial) rfl
  have fourth : RateReached onePerTen (Timely onePerTen)
      (⟨6, _, [0], [⟨0, 1, none⟩, ⟨5, 6, some 5⟩]⟩ : RateState Bool) :=
    .step third (show Timely onePerTen _ (.enter false 6) from
      timely_of_reading rfl (by decide) (by decide)) rfl
  exact ⟨_, rfl, rate_limited_of_timely onePerTen fourth⟩

/-- The first caller reads the clock, is delayed, and is admitted with its old stamp; the second
caller's reading then drops that stamp at once. -/
def overtaken : List (RateEvent Bool) :=
  [.read true 0, .enter true 14, .read false 15, .enter false 15]

/-- The second caller is admitted between the first one's reading and its critical section. -/
def refused : List (RateEvent Bool) :=
  [.read true 0, .read false 15, .enter false 15, .enter true 16]

theorem late_section_breaks_limit :
    (∃ s : RateState Bool, RateReached onePerTen (fun _ _ => True) s ∧ ¬ RateBounded onePerTen s) ∧
      ∃ s : RateState Bool, RateReached onePerTen (fun _ _ => True) s ∧
        ¬ WaitsJustified onePerTen s := by
  constructor
  · refine ⟨_, reached_of_events overtaken .start (fun _ _ => trivial) rfl, fun h => ?_⟩
    have hw := h 14
    revert hw
    decide
  · refine ⟨_, reached_of_events refused .start (fun _ _ => trivial) rfl, fun h => ?_⟩
    have hw := h [⟨15, 15, none⟩] ⟨0, 16, some 10⟩ [] rfl (by decide)
    revert hw
    decide

end Sample

end Run

end AutoHarness
