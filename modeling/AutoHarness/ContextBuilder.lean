import AutoHarness.ContextAdmission
import AutoHarness.GreedySelection

namespace AutoHarness

section Request

def maxRenderedContextBytes : Nat := 256 * 1024

/-- A non-zero budget within the signed durable-store range. -/
structure ContextTokenBudget where
  get : Nat
  positive : 0 < get
  bounded : get ≤ maxEstimatedTokens

theorem ContextTokenBudget.get_inj {left right : ContextTokenBudget} :
    left.get = right.get ↔ left = right := by
  cases left
  cases right
  simp

instance : DecidableEq ContextTokenBudget := fun _ _ => decidable_of_iff _ ContextTokenBudget.get_inj

/-- A generation within the signed durable-store range. -/
structure MemoryGeneration where
  get : Nat
  bounded : get ≤ maxEstimatedTokens

theorem MemoryGeneration.get_inj {left right : MemoryGeneration} :
    left.get = right.get ↔ left = right := by
  cases left
  cases right
  simp

instance : DecidableEq MemoryGeneration := fun _ _ => decidable_of_iff _ MemoryGeneration.get_inj

/-- Fixed identity and optimistic state used to construct one provider turn. -/
structure ContextBuildRequest where
  contextTurnId : ContextTurnId
  epochId : ContextEpochId
  sessionId : SessionId
  attemptId : AttemptId
  runTurn : UInt32
  expectedSessionSequence : SessionSequence
  memoryGeneration : MemoryGeneration
  model : ModelRef
  tokenBudget : ContextTokenBudget
  reservedTokens : EstimatedTokens
  durableMemoryLimit : EstimatedTokens
  committedAt : TimestampMillis
  retrievalScope : RetrievalScope
  observedSources : List ObservedContextSource
  auditSnapshots : List ContextSourceSnapshot
  memoryCandidates : List MemoryCandidate

def validateRequest (request : ContextBuildRequest) : Except ContextError Unit :=
  if request.runTurn = 0 ∨ request.reservedTokens.get > request.tokenBudget.get then
    .error .budgetExceeded
  else .ok ()

/-- The first of two equal neighbours. -/
def firstDuplicate {κ : Type} [DecidableEq κ] : List κ → Option κ
  | first :: second :: rest =>
    if first = second then some first else firstDuplicate (second :: rest)
  | _ => none

/-- The first key that was there before. -/
def firstRepeated {κ : Type} [DecidableEq κ] : (seen : List κ) → List κ → Option κ
  | _, [] => none
  | seen, key :: keys => if key ∈ seen then some key else firstRepeated (key :: seen) keys

def sourcePriority (policy : ContextSourcePolicy) (target : ContextSection) (key : ContextSourceKey) :
    Nat ×ₗ Nat ×ₗ ContextSourceKey :=
  let required := if policy = .required then 0 else 1
  let place :=
    match target with
    | .authorizedInstruction => 0
    | .toolContract => 1
    | .conversationHistory => 2
    | .safetyPolicy | .currentInstruction => 3
    | .durableMemory => 4
  toLex (required, toLex (place, key))

end Request

section Fits

/-- Whether the prelude of a selection keeps within the byte limit and the token budget. -/
def fitsTotal (request : ContextBuildRequest) (sources : List RenderedSource)
    (memories : List RankedRenderedMemory) : Except ContextError Bool :=
  match renderContextPrelude sources (memoryRenderings memories) with
  | none => .ok (request.reservedTokens.get ≤ request.tokenBudget.get)
  | some prelude =>
    if prelude.utf8ByteSize > maxRenderedContextBytes then .ok false
    else do
      let rendered ← estimate prelude
      let total := request.reservedTokens.get + rendered.get
      if total > 18446744073709551615 then .error .numericOverflow
      else .ok (total ≤ request.tokenBudget.get)

def fitsMemoryLimit (request : ContextBuildRequest) (memories : List RankedRenderedMemory) :
    Except ContextError Bool := do
  let rendered := memories.foldl (fun text memory => text ++ memory.rendered.rendered ++ "\n") ""
  let size ← estimate rendered
  .ok (size.get ≤ request.durableMemoryLimit.get)

end Fits

section Build

variable (codec : FactCodec)

/-- The rendered sources with their policies, in the order of the observations. -/
def renderedSources (observed : List ObservedContextSource) :
    Except ContextError (List (ContextSourcePolicy × RenderedSource)) := do
  let rendered ← observed.mapM fun source =>
    (renderSource codec source).map fun rendered => rendered.map fun rendered => (source.policy, rendered)
  .ok (rendered.filterMap id)

def renderedBefore (left right : ContextSourcePolicy × RenderedSource) : Bool :=
  sourcePriority left.1 left.2.target left.2.sourceKey ≤
    sourcePriority right.1 right.2.target right.2.sourceKey

def refuseSource (source : ContextSourcePolicy × RenderedSource) : Except ContextError Unit :=
  if source.1 = .required then .error .budgetExceeded else .ok ()

def selectSources (request : ContextBuildRequest)
    (sources : List (ContextSourcePolicy × RenderedSource)) : Except ContextError (List RenderedSource) :=
  GreedySelection.choose Prod.snd (fun trial => fitsTotal request trial []) refuseSource [] sources

def fitsMemories (request : ContextBuildRequest) (sources : List RenderedSource)
    (trial : List RankedRenderedMemory) : Except ContextError Bool := do
  if ← fitsMemoryLimit request trial then fitsTotal request sources trial else .ok false

def selectMemories (request : ContextBuildRequest) (sources : List RenderedSource)
    (memories : List RankedRenderedMemory) : Except ContextError (List RankedRenderedMemory) :=
  GreedySelection.choose id (fitsMemories request sources) (fun _ => .ok ()) [] memories

def renderRanked (ranked : RankedMemory) : Except ContextError RankedRenderedMemory :=
  (renderMemory codec ranked).map fun rendered => ⟨ranked, rendered⟩

/-- Provider-neutral context before the request hash is known. -/
structure BuiltContext where
  request : ContextBuildRequest
  prelude : Option String
  renderedHash : Sha256Digest
  renderedTokenCount : EstimatedTokens
  snapshots : List ContextSourceSnapshot
  admissions : List ContextAdmission
  selectedSources : List RenderedSource
  selectedMemories : List RenderedMemory

def renderedContextHash (rendered : String) : Sha256Digest :=
  (CanonicalEncoder.new.field "context_renderer_v1" (utf8Bytes rendered)).finish codec

def sortSnapshots (snapshots : List ContextSourceSnapshot) : List ContextSourceSnapshot :=
  snapshots.mergeSort fun left right => left.sourceKey ≤ right.sourceKey

def sortSources (observed : List ObservedContextSource) : List ObservedContextSource :=
  observed.mergeSort fun left right => left.snapshot.sourceKey ≤ right.snapshot.sourceKey

def refuseDuplicate (keys : List ContextSourceKey) : Except ContextError Unit :=
  match firstDuplicate keys with
  | some key => .error (.duplicateSource key)
  | none => .ok ()

/-- The checks on the source observations, and all snapshots in key order. -/
def checkSources (observed : List ObservedContextSource) (audits : List ContextSourceSnapshot) :
    Except ContextError (List ContextSourceSnapshot) := do
  refuseDuplicate (observed.map fun source => source.snapshot.sourceKey)
  if audits.any fun snapshot => snapshot.visibility ≠ .auditOnly then .error .invalidDomainValue
  else do
    let snapshots := sortSnapshots (observed.map ObservedContextSource.snapshot ++ audits)
    refuseDuplicate (snapshots.map ContextSourceSnapshot.sourceKey)
    .ok snapshots

def validateUniqueRevisions (ranked : List RankedMemory) : Except ContextError Unit :=
  match firstRepeated [] (ranked.map fun memory => memory.candidate.revisionId) with
  | some revisionId => .error (.duplicateMemoryRevision revisionId)
  | none => .ok ()

/-- Constructs an immutable context draft. -/
def build (request : ContextBuildRequest) : Except ContextError BuiltContext := do
  validateRequest request
  let observed := sortSources request.observedSources
  let snapshots ← checkSources observed request.auditSnapshots
  let rendered ← renderedSources codec observed
  let sources := rendered.mergeSort renderedBefore
  let ranked := rank request.retrievalScope request.memoryCandidates
  validateUniqueRevisions ranked
  let memories ← ranked.mapM (renderRanked codec)
  let selectedSources ← selectSources request sources
  let selectedMemories ← selectMemories request selectedSources memories
  let prelude := renderContextPrelude selectedSources (memoryRenderings selectedMemories)
  let renderedTokenCount ← (prelude.elim (EstimatedTokens.new 0) estimate)
  let admissions ← buildAdmissions codec request.contextTurnId request.committedAt observed
    selectedSources selectedMemories
  .ok ⟨{ request with observedSources := observed }, prelude,
    renderedContextHash codec (prelude.getD ""), renderedTokenCount, snapshots, admissions,
    selectedSources, memoryRenderings selectedMemories⟩

end Build

end AutoHarness
