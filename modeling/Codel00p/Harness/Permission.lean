import Codel00p.Lib.Files
import Codel00p.Lib.Json

/-! Permission requests and decisions, and the errors of the harness. -/

namespace Codel00p

/-- What a tool can reach. -/
inductive PermissionScope where
  | readOnly
  | workspaceWrite
  | shell
  | network
  | externalConnector
  | memoryWrite
  deriving DecidableEq, Repr

namespace PermissionScope

/-- Severity ranking used to pick a pipeline's effective permission scope. -/
def rank : PermissionScope → Nat
  | .readOnly => 0
  | .memoryWrite => 1
  | .workspaceWrite => 2
  | .network => 3
  | .shell => 4
  | .externalConnector => 5

def label : PermissionScope → String
  | .readOnly => "read_only"
  | .memoryWrite => "memory_write"
  | .workspaceWrite => "workspace_write"
  | .network => "network"
  | .shell => "shell"
  | .externalConnector => "external_connector"

def strongest : List PermissionScope → PermissionScope
  | [] => .readOnly
  | scope :: scopes =>
    scopes.foldl (fun best next => if best.rank ≤ next.rank then next else best) scope

theorem rank_eq_zero {scope : PermissionScope} : scope.rank = 0 ↔ scope = .readOnly := by
  cases scope <;> decide

theorem rank_le_strongest {scopes : List PermissionScope} {scope : PermissionScope}
    (member : scope ∈ scopes) : scope.rank ≤ (strongest scopes).rank := by
  -- The fold only ever replaces its candidate by one that ranks at least as high.
  have general : ∀ (rest : List PermissionScope) (best : PermissionScope),
      ∀ other, other = best ∨ other ∈ rest → other.rank ≤
        (rest.foldl (fun best next => if best.rank ≤ next.rank then next else best) best).rank := by
    intro rest
    induction rest with
    | nil => rintro best other (rfl | wrong) <;> [exact Nat.le_refl _; simp at wrong]
    | cons next rest ih =>
      rintro best other found
      rw [List.foldl_cons]
      by_cases higher : best.rank ≤ next.rank
      · rw [if_pos higher]
        rcases found with rfl | found
        · exact Nat.le_trans higher (ih next next (.inl rfl))
        · exact ih next other (by simpa using found)
      · rw [if_neg higher]
        rcases found with rfl | found
        · exact ih other other (.inl rfl)
        · rcases List.mem_cons.1 found with rfl | later
          · exact Nat.le_trans (by omega) (ih best best (.inl rfl))
          · exact ih best other (.inr later)
  cases scopes with
  | nil => simp at member
  | cons first rest => exact general rest first scope (by simpa using member)

theorem strongest_mem (scopes : List PermissionScope) : strongest scopes = .readOnly ∨ strongest scopes ∈ scopes := by
  have general : ∀ (rest : List PermissionScope) (best : PermissionScope),
      rest.foldl (fun best next => if best.rank ≤ next.rank then next else best) best
        ∈ best :: rest := by
    intro rest
    induction rest with
    | nil => exact fun best => List.mem_singleton.2 rfl
    | cons next rest ih =>
      intro best
      rw [List.foldl_cons]
      split
      · exact List.mem_cons_of_mem _ (ih next)
      · rcases List.mem_cons.1 (ih best) with same | later
        · rw [same]
          exact List.mem_cons_self
        · exact List.mem_cons_of_mem _ (List.mem_cons_of_mem _ later)
  cases scopes with
  | nil => exact .inl rfl
  | cons first rest => exact .inr (general rest first)

theorem strongest_eq_readOnly {scopes : List PermissionScope} :
    strongest scopes = .readOnly ↔ ∀ scope ∈ scopes, scope = .readOnly := by
  constructor
  · intro weakest scope member
    have bound := rank_le_strongest member
    rw [weakest] at bound
    exact rank_eq_zero.1 (Nat.le_zero.1 bound)
  · intro all
    rcases strongest_mem scopes with weakest | member
    · exact weakest
    · exact all _ member

end PermissionScope

/-- Everything that can go wrong in the harness. -/
inductive HarnessError where
  | configuration (message : String)
  | workspaceEscape (path : String)
  | invalidWorkspacePath (path : String)
  | toolNotFound (name : String)
  | invalidToolInput (name message : String)
  | toolFailed (name message : String)
  | inferenceFailed (message : String)
  | iterationLimit (limit : Nat)
  | io (error : IoError)
  | json (message : String)
  deriving DecidableEq, Repr

def HarnessError.message : HarnessError → String
  | .configuration message => "invalid harness configuration: " ++ message
  | .workspaceEscape path => "workspace path escapes the configured root: " ++ path
  | .invalidWorkspacePath path => "workspace path is invalid: " ++ path
  | .toolNotFound name => "tool not found: " ++ name
  | .invalidToolInput name message => "invalid input for tool " ++ name ++ ": " ++ message
  | .toolFailed name message => "tool failed: " ++ name ++ ": " ++ message
  | .inferenceFailed message => "inference failed: " ++ message
  | .iterationLimit limit =>
    "reached the " ++ toString limit ++ "-step iteration limit before finishing — the task needed "
      ++ "more steps than allowed. Raise it with `--max-iterations`, `agent.max_iterations`, or "
      ++ "Settings → Advanced, or break the task into smaller steps."
  | .io error => "io error: " ++ error.message
  | .json message => "json error: " ++ message

/-- What a policy is asked to decide on. -/
structure PermissionRequest where
  requestId : String
  sessionId : String
  turnId : String
  toolName : String
  input : Json
  scope : PermissionScope
  reason : Option String := none

inductive PermissionMode where
  | allow
  | ask
  | deny
  deriving DecidableEq, Repr

inductive PermissionStatus where
  | allow
  | deny
  deriving DecidableEq, Repr

/-- A policy's answer to a request. -/
structure PermissionDecision where
  requestId : String
  mode : PermissionMode
  status : PermissionStatus
  message : Option String
  deriving DecidableEq, Repr

namespace PermissionDecision

/-- Let a request pass. -/
def allow (requestId : String) (mode : PermissionMode) : PermissionDecision :=
  { requestId, mode, status := .allow, message := none }

def deny (requestId : String) (mode : PermissionMode) (message : String) : PermissionDecision :=
  { requestId, mode, status := .deny, message := some message }

/-- Whether the tool may run. -/
def allowsExecution (decision : PermissionDecision) : Bool := decision.status == .allow

/-- What the model is told of a denial. -/
def denialMessage (decision : PermissionDecision) : String :=
  decision.message.getD "tool execution denied by permission policy"

/-- The result recorded for a denied call. -/
def denial (decision : PermissionDecision) : Json :=
  .obj [("error", .string decision.denialMessage), ("error_kind", .string "permission_denied")]

end PermissionDecision

end Codel00p
