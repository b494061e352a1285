import Codel00p.Memory.Entry
import Codel00p.Storage.InMemory

/-! Review decisions, edits, merges, splits, and the audit events they leave behind. -/

namespace Codel00p

inductive MemoryError where
  | invalidCandidate (message : String)
  | invalidEdit (message : String)
  | invalidMerge (message : String)
  | invalidSplit (message : String)
  | memoryAlreadyExists (id : String)
  | duplicateMemory (id existingId : String)
  | memoryNotFound (id : String)
  | invalidTransition (source target : MemoryStatus)
  | storage (message : String)
  | ranking (message : String)
  deriving DecidableEq, Repr

inductive MemoryAuditAction where
  | candidateCreated | approved | rejected | archived | edited | merged | split | evidenceAdded
  deriving DecidableEq, Repr

/-- A reviewer's verdict on a memory. -/
inductive ReviewDecision where
  | approve (actor : String)
  | reject (actor reason : String)
  | archive (actor reason : String)
  deriving DecidableEq, Repr

namespace ReviewDecision

def actor : ReviewDecision → String
  | .approve actor => actor
  | .reject actor _ => actor
  | .archive actor _ => actor

/-- Why, where the verdict carries a reason. -/
def reason : ReviewDecision → Option String
  | .approve _ => none
  | .reject _ reason => some reason
  | .archive _ reason => some reason

def action : ReviewDecision → MemoryAuditAction
  | .approve _ => .approved
  | .reject _ _ => .rejected
  | .archive _ _ => .archived

/-- The status the verdict gives. -/
def nextStatus : ReviewDecision → MemoryStatus
  | .approve _ => .approved
  | .reject _ _ => .rejected
  | .archive _ _ => .archived

end ReviewDecision

/-- A request to split part of a memory off into a new candidate. -/
structure MemorySplit where
  actor : String
  newId : String
  newContent : String
  updatedSourceContent : Option String := none
  reason : Option String := none
  deriving DecidableEq, Repr

/-- A request to fold one memory into another. -/
structure MemoryMerge where
  actor : String
  reason : Option String := none
  deriving DecidableEq, Repr

/-- A request to replace a memory's content. -/
structure MemoryEdit where
  actor : String
  content : String
  reason : Option String := none
  deriving DecidableEq, Repr

structure MemoryAuditEvent where
  memoryId : String
  sequence : Nat := 0
  action : MemoryAuditAction
  actor : String
  reason : Option String := none
  previousContent : Option String := none
  newContent : Option String := none
  mergedInto : Option String := none
  splitInto : Option String := none
  evidenceReference : Option String := none
  deriving DecidableEq, Repr

namespace MemoryAuditEvent

/-- A candidate came into being with its first content. -/
def created (memoryId initialContent : String) : MemoryAuditEvent :=
  { memoryId, action := .candidateCreated, actor := "system", newContent := some initialContent }

def reviewed (memoryId : String) (decision : ReviewDecision) : MemoryAuditEvent :=
  { memoryId, action := decision.action, actor := decision.actor, reason := decision.reason }

/-- The source side of a merge names the memory it was folded into. -/
def merged (memoryId : String) (merge : MemoryMerge) (mergedInto : String) : MemoryAuditEvent :=
  { memoryId, action := .merged, actor := merge.actor, reason := merge.reason,
    mergedInto := some mergedInto }

def mergedFrom (memoryId : String) (merge : MemoryMerge) (sourceId : String) : MemoryAuditEvent :=
  let reason := match merge.reason with
    | some reason => "absorbed " ++ sourceId ++ ": " ++ reason
    | none => "absorbed " ++ sourceId
  { memoryId, action := .merged, actor := merge.actor, reason := some reason }

def splitSource (memoryId : String) (split : MemorySplit) : MemoryAuditEvent :=
  { memoryId, action := .split, actor := split.actor, reason := split.reason,
    splitInto := some split.newId }

def splitFrom (memoryId : String) (split : MemorySplit) (sourceId : String) : MemoryAuditEvent :=
  let reason := match split.reason with
    | some reason => "split from " ++ sourceId ++ ": " ++ reason
    | none => "split from " ++ sourceId
  { memoryId, action := .split, actor := split.actor, reason := some reason }

def edited (memoryId : String) (edit : MemoryEdit) (previousContent newContent : String) :
    MemoryAuditEvent :=
  { memoryId, action := .edited, actor := edit.actor, reason := edit.reason,
    previousContent := some previousContent, newContent := some newContent }

def evidenceAdded (memoryId actor reference : String) (reason : Option String) : MemoryAuditEvent :=
  { memoryId, action := .evidenceAdded, actor, reason, evidenceReference := some reference }

/-- An event read back from its log takes the log's sequence number. -/
def fromLogEntry (entry : AppendLogEntry MemoryAuditEvent) : MemoryAuditEvent :=
  { entry.payload with sequence := entry.sequence }

end MemoryAuditEvent

end Codel00p
