import AutoHarness.CapabilityConfinement
import AutoHarness.KeyringVault
import AutoHarness.ToolPermission

namespace AutoHarness

/-- The origin of a web address as the URL crate has it. -/
structure NetworkOrigin where
  scheme : String
  host : String
  port : Nat
deriving DecidableEq, Repr

def defaultPort (scheme : String) : Option Nat :=
  if scheme = "http" then some 80 else if scheme = "https" then some 443 else none

/-- What an operation reaches out to. -/
inductive Target where
  | path (components : List String)
  | command (program : String) (cwd : List String)
  | origin (origin : NetworkOrigin)
  | proposals (scope : MemoryProposalScope)
deriving DecidableEq, Repr

def Operation.target (originOf : Url → NetworkOrigin) : Operation → Option Target
  | .rejectInvalid => none
  | .submitMemoryProposal proposal => some (.proposals proposal.scope)
  | .readFile path | .writeFile path _ => some (.path path)
  | .runProcess program _ cwd => some (.command program cwd)
  | .httpRequest _ url _ => some (.origin (originOf url))

/-- The file path or the working directory of an operation. -/
def Operation.relativePath : Operation → List String
  | .readFile path | .writeFile path _ | .runProcess _ _ path => path
  | .rejectInvalid | .submitMemoryProposal _ | .httpRequest _ _ _ => []

def NormalPart (part : String) : Prop :=
  part ≠ "" ∧ part ≠ "." ∧ part ≠ ".." ∧ '/' ∉ part.toList

theorem displayRelative_toList {path : List String} (h : path ≠ []) :
    (displayRelative path).toList = ['/'].intercalate (path.map String.toList) := by
  simp [displayRelative, h]

theorem splitOn_displayRelative {path : List String} (normal : ∀ part ∈ path, NormalPart part)
    (h : path ≠ []) : (displayRelative path).toList.splitOn '/' = path.map String.toList := by
  rw [displayRelative_toList h]
  apply List.splitOn_intercalate
  · intro piece member
    obtain ⟨part, listed, rfl⟩ := List.mem_map.mp member
    exact (normal part listed).2.2.2
  · simpa using h

theorem displayRelative_ne_dot {path : List String} (normal : ∀ part ∈ path, NormalPart part)
    (h : path ≠ []) : displayRelative path ≠ "." := by
  intro dot
  have pieces := splitOn_displayRelative normal h
  rw [dot] at pieces
  have single : path.map String.toList = [".".toList] := pieces.symm
  obtain ⟨part, rest, rfl⟩ := List.exists_cons_of_ne_nil h
  simp only [List.map_cons, List.cons.injEq] at single
  exact (normal part (by simp)).2.1 (String.toList_inj.mp single.1)

theorem displayRelative_injective {p q : List String} (hp : ∀ part ∈ p, NormalPart part)
    (hq : ∀ part ∈ q, NormalPart part) (h : displayRelative p = displayRelative q) : p = q := by
  by_cases emptyP : p = []
  · by_cases emptyQ : q = []
    · rw [emptyP, emptyQ]
    · rw [emptyP] at h
      exact absurd h.symm (displayRelative_ne_dot hq emptyQ)
  · by_cases emptyQ : q = []
    · rw [emptyQ] at h
      exact absurd h (displayRelative_ne_dot hp emptyP)
    · have pieces := splitOn_displayRelative hp emptyP
      rw [h, splitOn_displayRelative hq emptyQ] at pieces
      exact (List.map_injective_iff.mpr fun _ _ => String.toList_inj.mp) pieces.symm

theorem MemoryProposalScope.asResourceName_injective {a b : MemoryProposalScope}
    (h : a.asResourceName = b.asResourceName) : a = b := by
  cases a <;> cases b <;> first | rfl | exact absurd h (by decide)

namespace NetworkOrigin

/-- The part of a serialization behind the scheme. -/
def authority (origin : NetworkOrigin) : List Char :=
  if defaultPort origin.scheme = some origin.port then origin.host.toList
  else origin.host.toList ++ ':' :: Nat.toDigits 10 origin.port

end NetworkOrigin

section Targets

variable {parseUrl : String → Option Url} {originOf : Url → NetworkOrigin}

theorem Plans.normal {operation : Operation} {capability : CapabilityRequest}
    (h : Plans parseUrl operation capability) :
    ∀ part ∈ operation.relativePath, NormalPart part := by
  cases h with
  | readFile normal | writeFile _ normal | runProcess _ _ normal =>
    exact workspacePath_normal normal
  | httpRequest | submitMemoryProposal => simp [Operation.relativePath]

end Targets

def exampleUrl (text : String) : Url where
  serialization := text
  scheme := "https"
  username := ""
  password := none
  host := some "example.com"
  origin := "https://example.com"

/-- A parser that knows two pages of one host. -/
def parsePages (text : String) : Option Url :=
  if text = "https://example.com/a" || text = "https://example.com/b" then some (exampleUrl text)
  else none

theorem method_before_url : (["method", "url"] : List String).Pairwise (· < ·) := by
  refine List.Pairwise.cons ?_ (List.pairwise_singleton _ _)
  intro key h
  obtain rfl := List.mem_singleton.mp h
  exact @of_decide_eq_true _ (String.decidableLT "method" "url") rfl

def pageCall (page : String) : IncomingToolCall where
  toolCallId := sampleCall.toolCallId
  providerCallId := sampleCall.providerCallId
  toolName := ⟨"http_request", rfl⟩
  arguments := ⟨[("method", .string "GET"), ("url", .string page)], method_before_url⟩

end AutoHarness
