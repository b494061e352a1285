import Codel00p.Memory.Store

/-! What the repository can see of its storage, and every call as a list of writes planned from it. -/

namespace Codel00p

open MemoryEntry (foldl_withTag foldl_withEvidence new withStatus withSensitivity withVisibility withSource)
open MemoryStore (splitInput auditLog)

@[simp] theorem replaceContent_eq (entry : MemoryEntry) (content : String) :
    replaceContent entry content = { entry with content } := by
  -- The rebuilt entry takes every other field over, the source by cases on its presence.
  rcases entry with ⟨id, project, kind, status, sensitivity, visibility, old, tags, source, evidence⟩
  cases source <;>
    simp [replaceContent, foldl_withTag, foldl_withEvidence, new, withStatus, withSensitivity,
      withVisibility, withSource]

@[simp] theorem appendEvidence_eq (entry : MemoryEntry) (evidence : MemoryEvidence) :
    appendEvidence entry evidence = { entry with evidence := entry.evidence ++ [evidence] } := by
  rcases entry with ⟨id, project, kind, status, sensitivity, visibility, old, tags, source, links⟩
  cases source <;>
    simp [appendEvidence, foldl_withTag, foldl_withEvidence, new, withStatus, withSensitivity,
      withVisibility, withSource, MemoryEntry.withEvidence]

@[simp] theorem unionTags_eq (entry : MemoryEntry) (extra : List String) :
    unionTags entry extra = { entry with tags := extra.foldl addMissingTag entry.tags } := by
  rcases entry with ⟨id, project, kind, status, sensitivity, visibility, old, tags, source, links⟩
  cases source <;>
    simp [unionTags, foldl_withTag, foldl_withEvidence, new, withStatus, withSensitivity, withVisibility, withSource]

theorem splitInput_frame (source : MemoryEntry) (split : MemorySplit) : (splitInput source split).intoEntry =
      { id := split.newId, project := source.project, kind := source.kind, status := .candidate,
        sensitivity := source.sensitivity, visibility := source.visibility,
        content := split.newContent, tags := (splitInput source split).tags,
        source := some (source.source.getD { sessionId := "system", turnId := "split" }),
        evidence := [] } := by
  -- Carrying the tags over is the only fold, and it leaves the rest of the input as it was.
  rw [MemoryCandidateInput.intoEntry_eq]
  unfold splitInput
  rw [MemoryCandidateInput.foldl_withTag_frame]

theorem splitInput_content (source : MemoryEntry) (split : MemorySplit) :
    (splitInput source split).intoEntry.content = split.newContent := by
  rw [splitInput_frame]

/-- The repository's data as its readers see it, without storage keys and versions. -/
structure MemoryView where
  record : String → Option MemoryRecord
  audit : String → List MemoryAuditEvent
  index : List MemoryAuditEvent

def viewOf (scope : StorageScope) (storage : MemoryStorage) : MemoryView where
  record id := (storage.getDocument scope memoryCollection id).map StorageDocument.payload
  audit id := auditLog scope id storage
  index := (storage.replayLog scope memoryAuditStreamPrefix).map MemoryAuditEvent.fromLogEntry

/-- One backend write of the repository. -/
inductive MemoryWrite where
  | put (record : MemoryRecord)
  | audit (event : MemoryAuditEvent)
  | index (event : MemoryAuditEvent)
  deriving DecidableEq, Repr

def MemoryWrite.perform (scope : StorageScope) : MemoryWrite → MemoryStorage → MemoryStorage
  | .put record, storage =>
    storage.putDocument { scope, collection := memoryCollection, id := record.entry.id, payload := record }
  | .audit event, storage => storage.appendLogEntry scope (memoryAuditStream event.memoryId) event
  | .index event, storage => storage.appendLogEntry scope memoryAuditStreamPrefix event

/-- A write as the readers see it. -/
def MemoryWrite.apply : MemoryWrite → MemoryView → MemoryView
  | .put record, view =>
    { view with record := Function.update view.record record.entry.id (some record) }
  | .audit event, view =>
    -- A logged event takes the number after the ones already in its log.
    let events := view.audit event.memoryId
    let logged := events ++ [{ event with sequence := events.length + 1 }]
    { view with audit := Function.update view.audit event.memoryId logged }
  | .index event, view =>
    { view with index := view.index ++ [{ event with sequence := view.index.length + 1 }] }

theorem memoryAuditStream_ne_index (id : String) : memoryAuditStream id ≠ memoryAuditStreamPrefix := by
  -- The audit stream is longer by its separator.
  intro same
  have lengths := congrArg (fun text => text.toList.length) same
  simp [memoryAuditStream, memoryAuditStreamPrefix] at lengths

theorem memoryAuditStream_injective {left right : String}
    (same : memoryAuditStream left = memoryAuditStream right) : left = right := by
  simpa [memoryAuditStream] using same

/-- What a write does to the storage is what the readers see of it. -/
theorem viewOf_perform (scope : StorageScope) (write : MemoryWrite) (storage : MemoryStorage) :
    viewOf scope (write.perform scope storage) = write.apply (viewOf scope storage) := by
  cases write with
  | put record =>
    -- Only the documents change, and only at the record's own id.
    have logs : ∀ id, auditLog scope id
        ((MemoryWrite.put record).perform scope storage) =
          auditLog scope id storage := by
      intro id
      simp [auditLog, MemoryWrite.perform]
    simp only [viewOf, MemoryWrite.apply, logs, MemoryView.mk.injEq]
    refine ⟨?_, trivial, by simp [MemoryWrite.perform]⟩
    funext id
    by_cases same : id = record.entry.id <;> simp [MemoryWrite.perform, Function.update, same]
  | audit event =>
    -- The event's own stream grows by one, and the index is another stream.
    simp only [viewOf, MemoryWrite.apply, MemoryView.mk.injEq]
    refine ⟨by simp [MemoryWrite.perform], ?_, ?_⟩
    · funext id
      by_cases same : id = event.memoryId
      · subst same
        simp [auditLog, MemoryWrite.perform,
          InMemoryStorage.replayLog_appendLogEntry_self, MemoryAuditEvent.fromLogEntry]
      · have apart : memoryAuditStream id ≠ memoryAuditStream event.memoryId :=
          fun streams => same (memoryAuditStream_injective streams)
        simp [auditLog, MemoryWrite.perform, Function.update, same,
          InMemoryStorage.replayLog_appendLogEntry_ne _ _ _ apart]
    · simp [MemoryWrite.perform,
        InMemoryStorage.replayLog_appendLogEntry_ne _ _ _ (memoryAuditStream_ne_index _).symm]
  | index event =>
    simp only [viewOf, MemoryWrite.apply, MemoryView.mk.injEq]
    refine ⟨by simp [MemoryWrite.perform], ?_, ?_⟩
    · funext id
      simp [auditLog, MemoryWrite.perform,
        InMemoryStorage.replayLog_appendLogEntry_ne _ _ _ (memoryAuditStream_ne_index id)]
    · simp [MemoryWrite.perform, InMemoryStorage.replayLog_appendLogEntry_self, MemoryAuditEvent.fromLogEntry]

end Codel00p
