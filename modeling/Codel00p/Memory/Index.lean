import Codel00p.Memory.Lifecycle

/-! The index names every stored memory once in creation order, so listings are complete. -/

namespace Codel00p

structure MemoryListFilter.Accepts (filter : MemoryListFilter) (entry : MemoryEntry) : Prop where
  project : entry.project.id = filter.project.id
  status : ∀ status ∈ filter.status, entry.status = status
  kind : ∀ kind ∈ filter.kind, entry.kind = kind
  sensitivity : ∀ sensitivity ∈ filter.sensitivity, entry.sensitivity = sensitivity
  visibility : ∀ visibility ∈ filter.visibility, entry.visibility.rank ≤ visibility.rank
  tag : ∀ tag ∈ filter.tag, tag ∈ entry.tags

theorem passes_iff {α : Type} (field : Option α) (test : α → Bool) :
    passes field test = true ↔ ∀ value ∈ field, test value = true := by
  cases field <;> simp [passes]

theorem MemoryListFilter.keeps_iff (filter : MemoryListFilter) (entry : MemoryEntry) :
    filter.keeps entry = true ↔ filter.Accepts entry := by
  simp only [keeps, Bool.and_eq_true, passes_iff, beq_iff_eq, decide_eq_true_eq, List.any_eq_true, exists_eq_right]
  constructor
  · rintro ⟨⟨⟨⟨⟨project, status⟩, kind⟩, sensitivity⟩, visibility⟩, tag⟩
    exact ⟨project, status, kind, sensitivity, visibility, tag⟩
  · rintro ⟨project, status, kind, sensitivity, visibility, tag⟩
    exact ⟨⟨⟨⟨⟨project, status⟩, kind⟩, sensitivity⟩, visibility⟩, tag⟩

variable {view : MemoryView}

theorem indexedFrom_eq (events : List MemoryAuditEvent)
    (creations : ∀ event ∈ events, event.action = .candidateCreated)
    (stored : ∀ event ∈ events, ∃ record, view.record event.memoryId = some record) :
    ∃ found, view.indexedFrom events = .ok found ∧
      found.map (fun indexed => (some indexed.record, indexed.sequence)) =
        events.map fun event => (view.record event.memoryId, event.sequence) := by
  induction events with
  | nil => exact ⟨[], rfl, rfl⟩
  | cons event events ih =>
    obtain ⟨record, holds⟩ := stored event List.mem_cons_self
    obtain ⟨found, rest, same⟩ := ih (fun other member => creations other (.tail _ member))
      fun other member => stored other (.tail _ member)
    refine ⟨{ record, sequence := event.sequence } :: found, ?_, by simp [same, holds]⟩
    have first := MemoryView.get_eq_ok.2 holds
    simp [MemoryView.indexedFrom, creations event List.mem_cons_self, first, rest, bind,
      Except.bind, pure, Except.pure]

theorem ids_of_records (keyed : ∀ id record, view.record id = some record → record.entry.id = id)
    (ids : List String) (records : List MemoryRecord) (read : records.map some = ids.map view.record) :
    records.map (fun record => record.entry.id) = ids := by
  induction ids generalizing records with
  | nil => simpa using read
  | cons id ids ih =>
    cases records with
    | nil => simp at read
    | cons record records =>
      simp only [List.map_cons, List.cons.injEq] at read ⊢
      exact ⟨keyed id record read.1.symm, ih records read.2⟩

theorem WellFormed.records (formed : WellFormed view) : ∃ records, view.records = .ok records ∧
      records.map (fun record => record.entry.id) = view.indexedIds ∧
      ∀ record, record ∈ records ↔ ∃ id, view.record id = some record := by
  obtain ⟨found, read, same⟩ := indexedFrom_eq view.index formed.creations
    fun event member => (formed.named _).1 (List.mem_map_of_mem member)
  have listed : (found.map IndexedMemoryRecord.record).map some =
      view.indexedIds.map view.record := by
    simpa [MemoryView.indexedIds, Function.comp_def] using congrArg (List.map Prod.fst) same
  refine ⟨found.map IndexedMemoryRecord.record, ?_, ids_of_records formed.keyed _ _ listed, ?_⟩
  · simp [MemoryView.records, read, bind, Except.bind, pure, Except.pure]
  · intro record
    -- A stored memory's id is in the index, and the index reads it back.
    have listing : record ∈ found.map IndexedMemoryRecord.record ↔
        some record ∈ view.indexedIds.map view.record := by
      rw [← listed]
      simp
    rw [listing, List.mem_map]
    constructor
    · rintro ⟨id, _, holds⟩
      exact ⟨id, holds⟩
    · rintro ⟨id, holds⟩
      exact ⟨id, (formed.named id).2 ⟨record, holds⟩, holds⟩

/-- The ids a call adds to the index. -/
def MemoryOp.newIds (view : MemoryView) (op : MemoryOp) : List String :=
  match op, op.plan view with
  | .create _, .ok (_, record) => [record.entry.id]
  | .split _ _, .ok (_, record) => [record.entry.id]
  | _, _ => []

theorem indexedIds_apply (view : MemoryView) (op : MemoryOp) :
    (op.apply view).indexedIds = view.indexedIds ++ op.newIds view := by
  cases planned : op.plan view with
  | error error => cases op <;> simp [MemoryOp.apply, MemoryOp.newIds, planned]
  | ok result =>
    obtain ⟨writes, record⟩ := result
    have accepted := plan_eq_ok_iff.1 planned
    rw [apply_of_accepted accepted]
    -- Only creations and splits write to the index, and they write once.
    cases accepted with
    | create =>
      simp [MemoryOp.newIds, planned, MemoryView.indexedIds, applyAll, MemoryWrite.apply, MemoryAuditEvent.created]
    | @split sourceId request source =>
      have rewrites : ∀ seen : MemoryView,
          (applyAll (splitUpdate source.entry sourceId request) seen).index = seen.index := by
        intro seen
        unfold splitUpdate
        cases request.updatedSourceContent <;> rfl
      rw [MemoryView.indexedIds, applyAll_append, applyAll_append]
      simp only [applyAll, List.foldl_cons, List.foldl_nil, MemoryWrite.apply] at rewrites ⊢
      rw [rewrites]
      simp [MemoryOp.newIds, planned, MemoryView.indexedIds, MemoryAuditEvent.created, splitInput_frame]
    | _ => simp [MemoryOp.newIds, MemoryView.indexedIds, applyAll, MemoryWrite.apply]

variable (scope : StorageScope)

def MemoryOp.creates (op : MemoryOp) (backend : Backend) : List String :=
  match op, (Program.exec (op.run scope) backend).1 with
  | .create _, .ok record => [record.entry.id]
  | .split _ _, .ok record => [record.entry.id]
  | _, _ => []

def creations : List MemoryOp → Backend → List String
  | [], _ => []
  | op :: ops, backend => op.creates scope backend ++ creations ops (op.after scope backend)

theorem creates_working (op : MemoryOp) (storage : MemoryStorage) :
    op.creates scope { storage } = op.newIds (viewOf scope storage) := by
  unfold MemoryOp.creates MemoryOp.newIds
  rw [exec_run]
  cases op.plan (viewOf scope storage) with
  | error error => cases op <;> rfl
  | ok result =>
    obtain ⟨reached, performed, _⟩ := performAll_working scope result.2 result.1 storage
    simp only [carryOut, performed]
    cases op <;> rfl

theorem indexedIds_runOps (ops : List MemoryOp) (storage : MemoryStorage) :
    (viewOf scope (runOps scope ops { storage }).storage).indexedIds =
      (viewOf scope storage).indexedIds ++ creations scope ops { storage } := by
  induction ops generalizing storage with
  | nil => simp [runOps, creations]
  | cons op ops ih =>
    obtain ⟨next, stepped, seen⟩ := after_working scope storage op
    have grown := ih next
    rw [seen, indexedIds_apply, ← creates_working, ← stepped, List.append_assoc] at grown
    exact grown

theorem sorted_kept {records : List MemoryRecord}
    (once : (records.map fun record => record.entry.id).Nodup) (keep : MemoryRecord → Bool) :
    let listed := (records.filter keep).mergeSort fun left right => idLe left.entry right.entry
    (∀ record, record ∈ listed ↔ record ∈ records ∧ keep record = true) ∧
      listed.Nodup ∧ listed.Pairwise fun left right => left.entry.id < right.entry.id := by
  intro listed
  have perm : listed.Perm (records.filter keep) := List.mergeSort_perm _ _
  have distinct : (listed.map fun record => record.entry.id).Nodup :=
    (perm.map _).nodup_iff.2 (once.sublist (List.filter_sublist.map _))
  have sorted : listed.Pairwise fun left right => idLe left.entry right.entry = true := by
    refine List.pairwise_mergeSort ?_ ?_ _
    · intro left middle right
      simpa [idLe] using String.le_trans
    · intro left right
      simpa [idLe] using String.le_total left.entry.id right.entry.id
  refine ⟨fun record => by rw [perm.mem_iff, List.mem_filter], distinct.of_map, ?_⟩
  -- Ids that are in order and distinct rise strictly.
  refine (sorted.and (List.pairwise_map.1 distinct)).imp ?_
  rintro left right ⟨ordered, apart⟩
  simp only [idLe, decide_eq_true_eq] at ordered
  exact String.not_le.1 fun back => apart (String.le_antisymm ordered back)

/--
Completeness of the index on a working backend.

The index stream names the memories the run created, in the order of their creation,
each once, and these are the stored ones.
An unlimited listing gives the stored memories that match its filter, each once, by rising id.
-/
theorem index_complete (ops : List MemoryOp) :
    ((runOps scope ops {}).storage.replayLog scope memoryAuditStreamPrefix).map
        (fun entry => entry.payload.memoryId) = creations scope ops {} ∧ (creations scope ops {}).Nodup ∧
    (∀ id, id ∈ creations scope ops {} ↔
      ∃ record, MemoryStore.get scope id (runOps scope ops {}).storage = .ok record) ∧
    ∀ filter : MemoryListFilter, filter.limit = none →
      ∃ records, MemoryStore.list scope filter (runOps scope ops {}).storage = .ok records ∧
        (∀ record, record ∈ records ↔ filter.Accepts record.entry ∧
          ∃ id, MemoryStore.get scope id (runOps scope ops {}).storage = .ok record) ∧
        records.Nodup ∧ records.Pairwise fun left right => left.entry.id < right.entry.id := by
  have formed := wellFormed_run scope ops
  have created : (viewOf scope (runOps scope ops {}).storage).indexedIds = creations scope ops {} :=
    indexedIds_runOps scope ops {}
  refine ⟨?_, created ▸ formed.once, fun id => ?_, fun filter unlimited => ?_⟩
  · rw [← created]
    simp [MemoryView.indexedIds, viewOf, MemoryAuditEvent.fromLogEntry, Function.comp_def]
  · rw [← created, formed.named]
    simp [get_eq_ok_iff]
  · obtain ⟨records, read, ids, stored⟩ := formed.records
    have once : (records.map fun record => record.entry.id).Nodup := ids ▸ formed.once
    obtain ⟨members, distinct, sorted⟩ := sorted_kept once fun record => filter.keeps record.entry
    refine ⟨_, ?_, fun record => ?_, distinct, sorted⟩
    · rw [MemoryStore.list, records_eq_view, read, unlimited]
      rfl
    · rw [members, stored, MemoryListFilter.keeps_iff, and_comm]
      simp [get_eq_ok_iff]

end Codel00p
