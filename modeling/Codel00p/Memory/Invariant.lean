import Codel00p.Lib.Run
import Codel00p.Memory.Query
import Codel00p.Memory.Run

/-! The invariant that ties stored memories to their audit trails and to the index. -/

namespace Codel00p

open MemoryAuditEvent (memoryId created reviewed edited evidenceAdded revisedContent)
open Function (update_of_ne update_self)

def statusAfter (status : Option MemoryStatus) (event : MemoryAuditEvent) : Option MemoryStatus :=
  match event.action with
  | .candidateCreated => some .candidate
  | .approved => some .approved
  | .rejected => some .rejected
  | .archived => some .archived
  -- Only the absorbed side of a merge names the memory it went into.
  | .merged => if event.mergedInto.isSome then some .archived else status
  | .edited => status
  | .split => status
  | .evidenceAdded => status

def statusFromLog (events : List MemoryAuditEvent) : Option MemoryStatus := events.foldl statusAfter none

def MemoryView.indexedIds (view : MemoryView) : List String := view.index.map memoryId

variable {view : MemoryView}

/-- What an accepted call does, one memory at a time: it brings in candidates, and amends, touches, or notes others. -/
theorem Accepted.induction {op : MemoryOp} {writes : List MemoryWrite} {record : MemoryRecord}
    (accepted : Accepted view op writes record)
    (keyed : ∀ id record, view.record id = some record → record.entry.id = id) {holds : MemoryView → Prop}
    (start : holds view)
    (enroll : ∀ {view : MemoryView} {record : MemoryRecord}, holds view → view.record record.entry.id = none →
      record.entry.status = .candidate → holds (applyAll [.put record,
        .audit (.created record.entry.id record.entry.content), .index (.created record.entry.id record.entry.content)]
        view)) (amend : ∀ {view : MemoryView} {record current : MemoryRecord} {event : MemoryAuditEvent}, holds view →
      view.record record.entry.id = some current → event.memoryId = record.entry.id →
      statusAfter (some current.entry.status) event = some record.entry.status →
      some record.entry.content = event.revisedContent.or (some current.entry.content) →
      (event.action = .edited → event.revisedContent.isSome ∧ event.previousContent = some current.entry.content) →
      holds (applyAll [.put record, .audit event] view))
    (touch : ∀ {view : MemoryView} {record current : MemoryRecord}, holds view →
      view.record record.entry.id = some current → record.entry.status = current.entry.status →
      record.entry.content = current.entry.content → holds ((MemoryWrite.put record).apply view))
    (note : ∀ {view : MemoryView} {event : MemoryAuditEvent}, holds view →
      (∀ status, statusAfter status event = status) → event.revisedContent = none → event.action ≠ .edited →
      holds ((MemoryWrite.audit event).apply view)) : holds (applyAll writes view) := by
  cases accepted with
  | create valid fresh unique =>
    exact enroll start (by simpa [MemoryCandidateInput.intoEntry_eq] using fresh)
      (by simp [MemoryCandidateInput.intoEntry_eq])
  | @review id decision current found allowed =>
    obtain rfl := keyed _ _ found
    refine amend start found rfl ?_ ?_ ?_ <;> cases decision <;> simp [statusAfter, reviewed, ReviewDecision.action,
      ReviewDecision.nextStatus, revisedContent, MemoryEntry.withStatus]
  | edit valid found =>
    obtain rfl := keyed _ _ found
    exact amend start (by simpa using found) (by simp [edited]) (by simp [edited, statusAfter])
      (by simp [edited, revisedContent]) fun _ => ⟨by simp [edited, revisedContent], rfl⟩
  | addEvidence found active =>
    obtain rfl := keyed _ _ found
    exact amend start (by simpa using found) (by simp [evidenceAdded]) (by simp [evidenceAdded, statusAfter])
      (by simp [evidenceAdded, revisedContent]) (by rintro ⟨⟩)
  | @merge sourceId targetId request source target apart found foundTarget project active activeTarget =>
    -- The target keeps its status, the source is archived with its event, and the target's
    -- own event says nothing about its status.
    obtain rfl := keyed _ _ found
    obtain rfl := keyed _ _ foundTarget
    have touched : holds ((MemoryWrite.put { entry := unionTags target.entry source.entry.tags }).apply view) :=
      touch start (by simpa using foundTarget) (by simp) (by simp)
    have archived : holds (applyAll [.put { entry := source.entry.withStatus .archived },
        .audit (.merged source.entry.id request target.entry.id)] _) := amend touched
      (show _ = some source by simpa [MemoryWrite.apply, MemoryEntry.withStatus, update_of_ne apart] using found)
      rfl rfl rfl (by rintro ⟨⟩)
    exact note archived (fun _ => rfl) rfl (by rintro ⟨⟩)
  | @split sourceId request source found active fresh =>
    -- The new candidate is admitted, the source possibly rewritten, and both sides note the split.
    obtain rfl := keyed _ _ found
    have framed := splitInput_frame source.entry request
    have apart : source.entry.id ≠ request.newId := ne_of_apply_ne view.record (by simp [found, fresh])
    have admitted : holds (applyAll [.put { entry := (MemoryStore.splitInput source.entry request).intoEntry }, _, _] view) :=
      enroll start (by rw [framed]; exact fresh) (by rw [framed])
    rw [framed] at admitted ⊢
    rw [applyAll_append, applyAll_append]
    refine note (note ?_ (fun _ => rfl) rfl (by rintro ⟨⟩)) (fun _ => rfl) rfl (by rintro ⟨⟩)
    unfold splitUpdate
    cases request.updatedSourceContent with
    | none => exact admitted
    | some updatedContent =>
      exact amend admitted (by simpa [applyAll, MemoryWrite.apply, update_of_ne apart] using found)
        (by simp [edited]) (by simp [edited, statusAfter]) (by simp [edited, revisedContent])
        fun _ => ⟨by simp [edited, revisedContent], rfl⟩

structure WellFormed (view : MemoryView) : Prop where
  keyed : ∀ id record, view.record id = some record → record.entry.id = id
  status : ∀ id record, view.record id = some record → statusFromLog (view.audit id) = some record.entry.status
  creations : ∀ event ∈ view.index, event.action = .candidateCreated
  named : ∀ id, id ∈ view.indexedIds ↔ ∃ record, view.record id = some record
  once : view.indexedIds.Nodup

namespace WellFormed

theorem empty : WellFormed MemoryView.empty := by
  constructor <;> simp [MemoryView.empty, MemoryView.indexedIds]

theorem at_one (formed : WellFormed view) {changed : MemoryView} (id : String) (index : changed.index = view.index)
    (elsewhere : ∀ other, other ≠ id →
      changed.record other = view.record other ∧ changed.audit other = view.audit other)
    (present : (changed.record id).isSome = (view.record id).isSome)
    (agrees : ∀ record, changed.record id = some record →
      record.entry.id = id ∧ statusFromLog (changed.audit id) = some record.entry.status) : WellFormed changed where
  keyed other record stored := by
    by_cases own : other = id
    · subst own
      exact (agrees record stored).1
    · exact formed.keyed other record ((elsewhere other own).1 ▸ stored)
  status other record stored := by
    by_cases own : other = id
    · subst own
      exact (agrees record stored).2
    · rw [(elsewhere other own).2]
      exact formed.status other record ((elsewhere other own).1 ▸ stored)
  creations := index ▸ formed.creations
  named other := by
    have same : changed.indexedIds = view.indexedIds := by simp [MemoryView.indexedIds, index]
    rw [same, formed.named]
    by_cases own : other = id
    · subst own
      rw [← Option.isSome_iff_exists, ← Option.isSome_iff_exists, present]
    · rw [(elsewhere other own).1]
  once := by simpa [MemoryView.indexedIds, index] using formed.once

theorem touch (formed : WellFormed view) (record : MemoryRecord) {current : MemoryRecord}
    (found : view.record record.entry.id = some current) (same : record.entry.status = current.entry.status) :
    WellFormed ((MemoryWrite.put record).apply view) := by
  refine formed.at_one record.entry.id rfl ?_ ?_ ?_
  · intro other apart
    exact ⟨update_of_ne apart _ _, rfl⟩
  · simp [MemoryWrite.apply, found]
  · intro stored holds
    simp only [MemoryWrite.apply, update_self, Option.some.injEq] at holds
    subst holds
    exact ⟨rfl, same ▸ formed.status _ current found⟩

theorem note (formed : WellFormed view) {event : MemoryAuditEvent}
    (quiet : ∀ status, statusAfter status event = status) : WellFormed ((MemoryWrite.audit event).apply view) := by
  refine formed.at_one event.memoryId rfl ?_ rfl ?_
  · intro other apart
    exact ⟨rfl, update_of_ne apart _ _⟩
  · intro record stored
    refine ⟨formed.keyed _ record stored, ?_⟩
    simp only [MemoryWrite.apply, update_self, statusFromLog, List.foldl_append]
    exact (quiet _).trans (formed.status _ record stored)

variable {record : MemoryRecord}

section

variable (formed : WellFormed view)

include formed

theorem move {current : MemoryRecord} {event : MemoryAuditEvent}
    (found : view.record record.entry.id = some current) (about : event.memoryId = record.entry.id)
    (moved : statusAfter (some current.entry.status) event = some record.entry.status) :
    WellFormed (applyAll [.put record, .audit event] view) := by
  refine formed.at_one record.entry.id rfl ?_ ?_ ?_
  · intro other apart
    exact ⟨update_of_ne apart _ _, update_of_ne (about ▸ apart) _ _⟩
  · simp [applyAll, MemoryWrite.apply, found]
  · intro stored holds
    simp only [applyAll, List.foldl_cons, List.foldl_nil, MemoryWrite.apply, update_self, Option.some.injEq] at holds
    subst holds
    refine ⟨rfl, ?_⟩
    -- The trail grows by the event, which moves the status its old part told.
    have told := formed.status _ current found
    simp only [applyAll, List.foldl_cons, List.foldl_nil, MemoryWrite.apply, about,
      update_self, statusFromLog, List.foldl_append] at told ⊢
    rw [told]
    exact moved

/-- A new candidate with its trail and its index entry keeps the repository well formed. -/
theorem enroll {id content : String}
    (own : record.entry.id = id) (fresh : view.record id = none) (candidate : record.entry.status = .candidate) :
    WellFormed (applyAll [.put record, .audit (.created id content), .index (.created id content)] view) where
  keyed other stored holds := by
    by_cases same : other = id
    · simp only [applyAll, List.foldl_cons, List.foldl_nil, MemoryWrite.apply, own, same,
        update_self, Option.some.injEq] at holds
      rw [← holds, own, same]
    · simp only [applyAll, List.foldl_cons, List.foldl_nil, MemoryWrite.apply, own, update_of_ne same] at holds
      exact formed.keyed other stored holds
  status other stored holds := by
    by_cases same : other = id
    · simp only [applyAll, List.foldl_cons, List.foldl_nil, MemoryWrite.apply, own, same,
        update_self, Option.some.injEq] at holds
      subst holds
      -- The event of the creation starts the trail's status over.
      simp [applyAll, MemoryWrite.apply, created, statusFromLog, statusAfter, candidate, same]
    · simp only [applyAll, List.foldl_cons, List.foldl_nil, MemoryWrite.apply, own,
        created, update_of_ne same] at holds ⊢
      exact formed.status other stored holds
  creations event member := by
    simp only [applyAll, List.foldl_cons, List.foldl_nil, MemoryWrite.apply, List.mem_append,
      List.mem_singleton] at member
    rcases member with old | rfl
    · exact formed.creations event old
    · rfl
  named other := by
    have indexed := formed.named other
    by_cases same : other = id
    · simp [MemoryView.indexedIds, applyAll, MemoryWrite.apply, created, own, same]
    · simp only [MemoryView.indexedIds] at indexed
      simp [MemoryView.indexedIds, applyAll, MemoryWrite.apply, created, own, same, indexed]
  once := by
    -- A fresh id is not in the index yet.
    have absent : id ∉ view.indexedIds := by
      rw [formed.named, fresh]
      simp
    have grown : (applyAll [.put record, .audit (.created id content),
        .index (.created id content)] view).indexedIds = view.indexedIds ++ [id] := by
      simp [MemoryView.indexedIds, applyAll, MemoryWrite.apply, created]
    rw [grown]
    exact List.Nodup.append formed.once (List.nodup_singleton _) (by simpa using absent)

/-- An accepted call keeps the repository well formed. -/
theorem accepted {op : MemoryOp} {writes : List MemoryWrite}
    (accepted : Accepted view op writes record) : WellFormed (applyAll writes view) :=
  accepted.induction formed.keyed formed (fun formed => formed.enroll rfl)
    (fun formed found about moved _ _ => formed.move found about moved)
    (fun formed found same _ => formed.touch _ found same) fun formed quiet _ _ => formed.note quiet

theorem apply (op : MemoryOp) : WellFormed (op.apply view) := by
  rcases apply_cases view op with refused | ⟨writes, record, allowed, effect⟩
  · rwa [refused]
  · rw [effect]
    exact formed.accepted allowed

end

end WellFormed

theorem wellFormed_run (scope : StorageScope) (ops : List MemoryOp) :
    WellFormed (viewOf scope (runOps scope ops {}).storage) := by
  rw [viewOf_runOps]
  exact Run.invariant _ WellFormed (fun _ op formed => formed.apply op) .empty ops

end Codel00p
