import Codel00p.Lib.Program
import Codel00p.Memory.Review

/-! The storage-backed memory repository: candidates, review, edits, evidence, merges, and splits. -/

namespace Codel00p

open MemoryEntry (new withTag withEvidence)

/-- A stored memory, as the repository hands it out. -/
structure MemoryRecord where
  entry : MemoryEntry
  deriving DecidableEq, Repr

def memoryCollection : String := "memory_entries"

def memoryAuditStreamPrefix : String := "memory"

def memoryAuditStream (id : String) : String := memoryAuditStreamPrefix ++ "/" ++ id

abbrev MemoryStorage := InMemoryStorage MemoryRecord MemoryAuditEvent

/--
A backend whose writes may fail.

The list says of each coming write whether it fails, and past its end every write succeeds.
A failed write reports an error and leaves the stored data alone.
-/
structure Backend where
  storage : MemoryStorage := {}
  faults : List Bool := []

/-- Repository operations change the backend as they go and may stop with an error part of the way. -/
abbrev MemoryM := Program MemoryError Backend

def MemoryM.read {α : Type} (reader : MemoryStorage → Except MemoryError α) : MemoryM α := do
  let backend ← getThe Backend
  match reader backend.storage with
  | .ok value => pure value
  | .error error => throw error

def MemoryM.write (change : MemoryStorage → MemoryStorage) : MemoryM Unit := do
  let backend ← getThe Backend
  match backend.faults with
  | true :: faults =>
    set { backend with faults }
    throw (.storage "backend failure")
  | faults =>
    set ({ storage := change backend.storage, faults := faults.tail } : Backend)

def MemoryCandidateInput.validate (input : MemoryCandidateInput) : Except MemoryError Unit :=
  if (trim input.id).isEmpty then .error (.invalidCandidate "memory id cannot be empty")
  else if (trim input.content).isEmpty then
    .error (.invalidCandidate "memory content cannot be empty")
  else .ok ()

def MemoryEdit.validate (edit : MemoryEdit) : Except MemoryError Unit :=
  if (trim edit.content).isEmpty then .error (.invalidEdit "memory content cannot be empty")
  else .ok ()

/-- The status changes a review may make. -/
def ensureTransition (source target : MemoryStatus) : Except MemoryError Unit :=
  match source, target with
  | .candidate, .approved => .ok ()
  | .candidate, .rejected => .ok ()
  | .approved, .archived => .ok ()
  | source, target => .error (.invalidTransition source target)

def isActiveMemoryStatus : MemoryStatus → Bool
  | .candidate => true
  | .approved => true
  | .rejected => false
  | .archived => false

def replaceContent (entry : MemoryEntry) (content : String) : MemoryEntry :=
  let updated := (((new entry.id entry.project entry.kind content).withStatus
    entry.status).withSensitivity entry.sensitivity).withVisibility entry.visibility
  let updated := match entry.source with
    | some source => updated.withSource source
    | none => updated
  let updated := entry.tags.foldl withTag updated
  entry.evidence.foldl withEvidence updated

/-- Rebuild an entry with one more evidence link. -/
def appendEvidence (entry : MemoryEntry) (evidence : MemoryEvidence) : MemoryEntry :=
  let updated := (((new entry.id entry.project entry.kind entry.content).withStatus
    entry.status).withSensitivity entry.sensitivity).withVisibility entry.visibility
  let updated := match entry.source with
    | some source => updated.withSource source
    | none => updated
  let updated := entry.tags.foldl withTag updated
  let updated := entry.evidence.foldl withEvidence updated
  updated.withEvidence evidence

/-- Add a tag to the survivors of a merge unless it is already among them. -/
def addMissingTag (tags : List String) (tag : String) : List String :=
  if tags.any (· == tag) then tags else tags ++ [tag]

def unionTags (target : MemoryEntry) (extraTags : List String) : MemoryEntry :=
  let entry := (((new target.id target.project target.kind target.content).withStatus
    target.status).withSensitivity target.sensitivity).withVisibility target.visibility
  let entry := match target.source with
    | some source => entry.withSource source
    | none => entry
  let entry := target.evidence.foldl withEvidence entry
  let tags := extraTags.foldl addMissingTag target.tags
  tags.foldl withTag entry

structure IndexedMemoryRecord where
  record : MemoryRecord
  sequence : Nat
  deriving DecidableEq, Repr

namespace MemoryStore

variable (scope : StorageScope)

def get (id : String) (storage : MemoryStorage) : Except MemoryError MemoryRecord :=
  match storage.getDocument scope memoryCollection id with
  | some document => .ok document.payload
  | none => .error (.memoryNotFound id)

def auditLog (id : String) (storage : MemoryStorage) : List MemoryAuditEvent :=
  (storage.replayLog scope (memoryAuditStream id)).map MemoryAuditEvent.fromLogEntry

def indexedRecordsFrom (storage : MemoryStorage) :
    List MemoryAuditEvent → Except MemoryError (List IndexedMemoryRecord)
  | [] => .ok []
  | audit :: audits =>
    if audit.action = .candidateCreated then do
      let record ← get scope audit.memoryId storage
      let rest ← indexedRecordsFrom storage audits
      return { record, sequence := audit.sequence } :: rest
    else indexedRecordsFrom storage audits

def indexedRecords (storage : MemoryStorage) : Except MemoryError (List IndexedMemoryRecord) :=
  indexedRecordsFrom scope storage
    ((storage.replayLog scope memoryAuditStreamPrefix).map MemoryAuditEvent.fromLogEntry)

def records (storage : MemoryStorage) : Except MemoryError (List MemoryRecord) := do
  return (← indexedRecords scope storage).map IndexedMemoryRecord.record

def sameMemory (existing entry : MemoryEntry) : Bool :=
  isActiveMemoryStatus existing.status && existing.project.id == entry.project.id
    && existing.kind == entry.kind && trim existing.content == trim entry.content

def activeDuplicateId (entry : MemoryEntry) (storage : MemoryStorage) :
    Except MemoryError (Option String) := do
  let records ← records scope storage
  return (records.find? fun record => sameMemory record.entry entry).map (·.entry.id)

def taken (id : String) (storage : MemoryStorage) : Except MemoryError Bool :=
  .ok (storage.getDocument scope memoryCollection id).isSome

def putRecord (record : MemoryRecord) : MemoryM Unit :=
  MemoryM.write fun storage =>
    storage.putDocument { scope, collection := memoryCollection, id := record.entry.id, payload := record }

def appendAudit (event : MemoryAuditEvent) : MemoryM Unit :=
  MemoryM.write fun storage => storage.appendLogEntry scope (memoryAuditStream event.memoryId) event

def appendIndex (event : MemoryAuditEvent) : MemoryM Unit :=
  MemoryM.write fun storage => storage.appendLogEntry scope memoryAuditStreamPrefix event

def createCandidate (input : MemoryCandidateInput) : MemoryM MemoryRecord := do
  MemoryM.read fun _ => input.validate
  if ← MemoryM.read (taken scope input.id) then
    throw (.memoryAlreadyExists input.id)
  let entry := input.intoEntry
  match ← MemoryM.read (activeDuplicateId scope entry) with
  | some existingId => throw (.duplicateMemory entry.id existingId)
  | none => pure ()
  let record : MemoryRecord := { entry }
  putRecord scope record
  appendAudit scope (.created record.entry.id record.entry.content)
  appendIndex scope (.created record.entry.id record.entry.content)
  return record

def review (id : String) (decision : ReviewDecision) : MemoryM MemoryRecord := do
  let current ← MemoryM.read (get scope id)
  MemoryM.read fun _ => ensureTransition current.entry.status decision.nextStatus
  let record : MemoryRecord := { entry := current.entry.withStatus decision.nextStatus }
  putRecord scope record
  appendAudit scope (.reviewed id decision)
  return record

def edit (id : String) (edit : MemoryEdit) : MemoryM MemoryRecord := do
  MemoryM.read fun _ => edit.validate
  let current ← MemoryM.read (get scope id)
  let previousContent := current.entry.content
  let record : MemoryRecord := { entry := replaceContent current.entry edit.content }
  putRecord scope record
  appendAudit scope (.edited id edit previousContent edit.content)
  return record

def addEvidence (id : String) (evidence : MemoryEvidence) (actor : String)
    (reason : Option String) : MemoryM MemoryRecord := do
  let current ← MemoryM.read (get scope id)
  if !isActiveMemoryStatus current.entry.status then
    throw (.invalidEdit "cannot add evidence to a memory that is not active")
  let record : MemoryRecord := { entry := appendEvidence current.entry evidence }
  putRecord scope record
  appendAudit scope (.evidenceAdded id actor evidence.reference reason)
  return record

/-- Fold the source into the target: carry its tags over, then archive it. -/
def merge (sourceId targetId : String) (merge : MemoryMerge) : MemoryM MemoryRecord := do
  if sourceId = targetId then
    throw (.invalidMerge "cannot merge a memory into itself")
  let source ← MemoryM.read (get scope sourceId)
  let target ← MemoryM.read (get scope targetId)
  if source.entry.project.id ≠ target.entry.project.id then
    throw (.invalidMerge "memories belong to different projects")
  if !isActiveMemoryStatus source.entry.status then
    throw (.invalidMerge "source memory is not active")
  if !isActiveMemoryStatus target.entry.status then
    throw (.invalidMerge "target memory is not active")
  let targetRecord : MemoryRecord := { entry := unionTags target.entry source.entry.tags }
  putRecord scope targetRecord
  putRecord scope { entry := source.entry.withStatus .archived }
  appendAudit scope (.merged sourceId merge targetId)
  appendAudit scope (.mergedFrom targetId merge sourceId)
  return targetRecord

/-- The candidate a split creates, inheriting what the source says about itself. -/
def splitInput (source : MemoryEntry) (split : MemorySplit) : MemoryCandidateInput :=
  let newSource := source.source.getD { sessionId := "system", turnId := "split" }
  let input : MemoryCandidateInput :=
    { id := split.newId, project := source.project, kind := source.kind,
      sensitivity := source.sensitivity, visibility := source.visibility,
      content := split.newContent, source := newSource }
  source.tags.foldl MemoryCandidateInput.withTag input

/-- Split a new candidate off an active memory, optionally rewriting what stays. -/
def split (sourceId : String) (split : MemorySplit) : MemoryM MemoryRecord := do
  let source ← MemoryM.read (get scope sourceId)
  if !isActiveMemoryStatus source.entry.status then
    throw (.invalidSplit "source memory is not active")
  if ← MemoryM.read (taken scope split.newId) then
    throw (.memoryAlreadyExists split.newId)
  let newRecord : MemoryRecord := { entry := (splitInput source.entry split).intoEntry }
  putRecord scope newRecord
  appendAudit scope (.created split.newId newRecord.entry.content)
  appendIndex scope (.created split.newId newRecord.entry.content)
  match split.updatedSourceContent with
  | some updatedContent =>
    let previousContent := source.entry.content
    putRecord scope { entry := replaceContent source.entry updatedContent }
    appendAudit scope (.edited sourceId { actor := split.actor, content := updatedContent }
      previousContent updatedContent)
  | none => pure ()
  appendAudit scope (.splitSource sourceId split)
  appendAudit scope (.splitFrom split.newId split sourceId)
  return newRecord

end MemoryStore

/-- A call of the repository that can change it. -/
inductive MemoryOp where
  | create (input : MemoryCandidateInput)
  | review (id : String) (decision : ReviewDecision)
  | edit (id : String) (edit : MemoryEdit)
  | addEvidence (id : String) (evidence : MemoryEvidence) (actor : String) (reason : Option String)
  | merge (sourceId targetId : String) (merge : MemoryMerge)
  | split (sourceId : String) (split : MemorySplit)
  deriving DecidableEq, Repr

/-- Run a call against the repository. -/
def MemoryOp.run (scope : StorageScope) : MemoryOp → MemoryM MemoryRecord
  | .create input => MemoryStore.createCandidate scope input
  | .review id decision => MemoryStore.review scope id decision
  | .edit id change => MemoryStore.edit scope id change
  | .addEvidence id evidence actor reason => MemoryStore.addEvidence scope id evidence actor reason
  | .merge sourceId targetId request => MemoryStore.merge scope sourceId targetId request
  | .split sourceId request => MemoryStore.split scope sourceId request

end Codel00p
