import Codel00p.Memory.Store
import Mathlib.Data.List.Infix

/-! Reading memories back: listing by filter, retrieval with reasons, and content revisions. -/

namespace Codel00p

structure MemoryListFilter where
  project : ProjectRef
  status : Option MemoryStatus := none
  kind : Option MemoryKind := none
  sensitivity : Option MemorySensitivity := none
  visibility : Option MemoryVisibility := none
  tag : Option String := none
  limit : Option Nat := none
  deriving DecidableEq, Repr

/-- What a retrieval keeps. -/
structure MemoryQuery where
  project : ProjectRef
  kind : Option MemoryKind := none
  sensitivity : Option MemorySensitivity := none
  visibility : Option MemoryVisibility := none
  tag : Option String := none
  text : Option String := none
  limit : Option Nat := none
  deriving DecidableEq, Repr

structure RetrievedMemory where
  record : MemoryRecord
  reason : String
  deriving DecidableEq, Repr

structure MemoryRevision where
  revision : Nat
  sequence : Nat
  actor : String
  action : MemoryAuditAction
  content : String
  reason : Option String
  deriving DecidableEq, Repr

def memoryKindLabel : MemoryKind → String
  | .architecture => "architecture"
  | .convention => "convention"
  | .workflow => "workflow"
  | .decision => "decision"
  | .deployment => "deployment"
  | .troubleshooting => "troubleshooting"

def memorySensitivityLabel : MemorySensitivity → String
  | .normal => "normal"
  | .sensitive => "sensitive"

def memoryVisibilityLabel : MemoryVisibility → String
  | .priv => "private"
  | .project => "project"
  | .team => "team"
  | .org => "org"

def passes {α : Type} (field : Option α) (test : α → Bool) : Bool :=
  match field with
  | some value => test value
  | none => true

def MemoryListFilter.keeps (filter : MemoryListFilter) (entry : MemoryEntry) : Bool :=
  entry.project.id == filter.project.id
    && passes filter.status (entry.status == ·)
    && passes filter.kind (entry.kind == ·)
    && passes filter.sensitivity (entry.sensitivity == ·)
    && passes filter.visibility (fun visibility => entry.visibility.rank ≤ visibility.rank)
    && passes filter.tag (fun tag => entry.tags.any (· == tag))

def truncate {α : Type} (limit : Option Nat) (results : List α) : List α :=
  match limit with
  | some limit => results.take limit
  | none => results

def idLe (left right : MemoryEntry) : Bool := decide (left.id ≤ right.id)

/--
Whether a retrieval keeps a memory.

Text is compared after both sides are put in lower case by the given function.
-/
def MemoryQuery.keeps (toLowercase : String → String) (query : MemoryQuery) (entry : MemoryEntry) :
    Bool :=
  entry.status == .approved
    && entry.project.id == query.project.id
    && (match query.sensitivity with
      | some sensitivity => entry.sensitivity == sensitivity
      -- Sensitive memories are left out unless they are asked for.
      | none => entry.sensitivity != .sensitive)
    && passes query.visibility (fun visibility => entry.visibility.rank ≤ visibility.rank)
    && passes query.kind (entry.kind == ·)
    && passes query.tag (fun tag => entry.tags.any (· == tag))
    && passes query.text (fun text =>
      decide ((toLowercase text).toList <:+: (toLowercase entry.content).toList))

/-- The reason a retrieval gives, naming each filter that was set. -/
def MemoryQuery.reason (query : MemoryQuery) : String :=
  let reasons := (query.kind.map fun kind => "kind " ++ memoryKindLabel kind).toList
    ++ (query.tag.map ("tag " ++ ·)).toList
    ++ (query.text.map ("text " ++ ·)).toList
    ++ (query.sensitivity.map fun value => "sensitivity " ++ memorySensitivityLabel value).toList
    ++ (query.visibility.map fun value => "visibility " ++ memoryVisibilityLabel value).toList
  if reasons.isEmpty then "matched approved project memory"
  else "matched " ++ " and ".intercalate reasons

def MemoryAuditEvent.revisedContent (event : MemoryAuditEvent) : Option String :=
  match event.action with
  | .candidateCreated => event.newContent
  | .edited => event.newContent
  | _ => none

def revisionsFrom (revisionNumber : Nat) : List MemoryAuditEvent → List MemoryRevision
  | [] => []
  | event :: events =>
    match event.revisedContent with
    | some content =>
      { revision := revisionNumber + 1, sequence := event.sequence, actor := event.actor,
        action := event.action, content, reason := event.reason }
        :: revisionsFrom (revisionNumber + 1) events
    | none => revisionsFrom revisionNumber events

namespace MemoryStore

variable (scope : StorageScope)

def list (filter : MemoryListFilter) (storage : MemoryStorage) :
    Except MemoryError (List MemoryRecord) := do
  let kept := (← records scope storage).filter fun record => filter.keeps record.entry
  return truncate filter.limit (kept.mergeSort fun left right => idLe left.entry right.entry)

def retrieve (toLowercase : String → String) (query : MemoryQuery) (storage : MemoryStorage) :
    Except MemoryError (List RetrievedMemory) := do
  let kept := (← records scope storage).filter fun record => query.keeps toLowercase record.entry
  let retrieved := kept.map fun record => { record, reason := query.reason : RetrievedMemory }
  return truncate query.limit (retrieved.mergeSort fun left right => idLe left.record.entry right.record.entry)

/-- The content snapshots of a stored memory, oldest first. -/
def revisions (id : String) (storage : MemoryStorage) : Except MemoryError (List MemoryRevision) := do
  let _ ← get scope id storage
  return revisionsFrom 0 (auditLog scope id storage)

end MemoryStore

end Codel00p
