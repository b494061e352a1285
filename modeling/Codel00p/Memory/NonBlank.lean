import Codel00p.Memory.Uniqueness

/-! When every stored memory has an id and a content that are not blank. -/

namespace Codel00p

def NonBlankMemories (stored : String → Option MemoryRecord) : Prop :=
  ∀ id record, stored id = some record → isBlank record.entry.id = false ∧ isBlank record.entry.content = false

structure MemorySplit.NonBlank (request : MemorySplit) : Prop where
  newId : isBlank request.newId = false
  newContent : isBlank request.newContent = false
  updated : ∀ content ∈ request.updatedSourceContent, isBlank content = false

/-- The rewritten content of a split is set through a filter that drops blank text. -/
def MemorySplit.withUpdatedSourceContent (request : MemorySplit) (content : String) : MemorySplit :=
  { request with updatedSourceContent := nonEmptyFilter content }

namespace NonBlankMemories

variable {stored : String → Option MemoryRecord}

theorem put (fine : NonBlankMemories stored) (record : MemoryRecord)
    (id : isBlank record.entry.id = false) (content : isBlank record.entry.content = false) :
    NonBlankMemories (Function.update stored record.entry.id (some record)) := by
  intro other found holds
  by_cases own : other = record.entry.id
  · subst own
    rw [Function.update_self, Option.some.injEq] at holds
    subst holds
    exact ⟨id, content⟩
  · rw [Function.update_of_ne own] at holds
    exact fine other found holds

end NonBlankMemories

theorem MemoryCandidateInput.nonBlank_of_validate {input : MemoryCandidateInput} (valid : input.validate = .ok ()) :
    isBlank input.id = false ∧ isBlank input.content = false := by
  unfold validate at valid
  split at valid
  · cases valid
  · split at valid
    · cases valid
    · simp_all [isBlank]

theorem MemoryEdit.nonBlank_of_validate {edit : MemoryEdit} (valid : edit.validate = .ok ()) :
    isBlank edit.content = false := by
  unfold validate at valid
  split at valid
  · cases valid
  · simp_all [isBlank]

variable {view : MemoryView}

/-- An accepted call keeps all memories non-blank unless it is a split that brings blank text. -/
theorem nonBlank_accepted_iff (formed : WellFormed view) (fine : NonBlankMemories view.record)
    {op : MemoryOp} {writes : List MemoryWrite} {record : MemoryRecord} (accepted : Accepted view op writes record) :
    NonBlankMemories (applyAll writes view).record ↔
      ∀ sourceId request, op = .split sourceId request → request.NonBlank := by
  cases accepted with
  | @create input valid fresh unique =>
    obtain ⟨id, content⟩ := MemoryCandidateInput.nonBlank_of_validate valid
    have entered := input.intoEntry_eq
    exact iff_of_true (fine.put { entry := input.intoEntry } (by rw [entered]; exact id)
      (by rw [entered]; exact content)) (by simp)
  | review found allowed =>
    obtain ⟨id, content⟩ := fine _ _ found
    exact iff_of_true (fine.put _ id content) (by simp)
  | edit valid found =>
    have content := MemoryEdit.nonBlank_of_validate valid
    exact iff_of_true (fine.put _ (by simpa using (fine _ _ found).1) (by simpa using content))
      (by simp)
  | addEvidence found active =>
    obtain ⟨id, content⟩ := fine _ _ found
    exact iff_of_true (fine.put _ (by simpa using id) (by simpa using content)) (by simp)
  | @merge sourceId targetId request source target apart found foundTarget project active activeTarget =>
    obtain ⟨id, content⟩ := fine _ _ found
    obtain ⟨targetId, targetContent⟩ := fine _ _ foundTarget
    have kept := fine.put { entry := unionTags target.entry source.entry.tags }
      (by simpa using targetId) (by simpa using targetContent)
    exact iff_of_true (kept.put { entry := source.entry.withStatus .archived } id content) (by simp)
  | @split sourceId request source found active fresh =>
    obtain rfl := formed.keyed _ _ found
    have apart : source.entry.id ≠ request.newId := ne_of_apply_ne view.record (by simp [found, fresh])
    rw [record_split found fresh, splitInput_frame]
    constructor
    · rintro after _ _ ⟨⟩
      obtain ⟨id, content⟩ := after request.newId _ (Function.update_self _ _ _)
      obtain ⟨-, stays⟩ := after source.entry.id _ (by rw [Function.update_of_ne apart, Function.update_self])
      exact ⟨id, content, fun updated rewritten => by simpa [Option.mem_def.1 rewritten] using stays⟩
    · intro guarded
      obtain ⟨newId, newContent, updated⟩ := guarded _ _ rfl
      obtain ⟨id, content⟩ := fine _ _ found
      -- What stays of the source is its old content unless the request rewrites it.
      have stays : isBlank (request.updatedSourceContent.getD source.entry.content) = false := by
        cases rewritten : request.updatedSourceContent with
        | none => exact content
        | some text => exact updated text rewritten
      have kept := fine.put
        { entry := { source.entry with content := request.updatedSourceContent.getD source.entry.content } } id stays
      have made := kept.put { entry := (MemoryStore.splitInput source.entry request).intoEntry }
      rw [splitInput_frame] at made
      exact made newId newContent

theorem succeeds_iff_accepted (scope : StorageScope) (done : List MemoryOp) (op : MemoryOp) :
    (∃ record, (Program.exec (op.run scope) (runOps scope done {})).1 = .ok record) ↔
      ∃ writes record, Accepted (viewOf scope (runOps scope done {}).storage) op writes record := by
  obtain ⟨storage, run, _⟩ := runOps_working scope done {}
  rw [show runOps scope done {} = { storage } from run, exec_run]
  cases planned : op.plan (viewOf scope storage) with
  | error error => simp [carryOut, ← plan_eq_ok_iff, planned]
  | ok result =>
    obtain ⟨reached, performed, _⟩ := performAll_working scope result.2 result.1 storage
    simp [carryOut, performed, ← plan_eq_ok_iff, planned, Prod.ext_iff]

/--
Stored memories are never blank exactly when no successful split brings blank text.

The repository checks the id and the content of a candidate and the content of an edit,
and it takes those of a split unchecked.
A run keeps every memory non-blank throughout if and only if
each of its successful splits names a new id, a new content,
and a rewritten source content that are not blank.
-/
theorem memories_nonBlank_iff (scope : StorageScope) (ops : List MemoryOp) :
    (∀ done rest, ops = done ++ rest → ∀ id record,
      MemoryStore.get scope id (runOps scope done {}).storage = .ok record →
        isBlank record.entry.id = false ∧ isBlank record.entry.content = false) ↔
      ∀ (done : List MemoryOp) (sourceId : String) (request : MemorySplit) (rest : List MemoryOp),
        ops = done ++ .split sourceId request :: rest →
        (∃ record, (Program.exec (MemoryStore.split scope sourceId request)
          (runOps scope done {})).1 = .ok record) → request.NonBlank := by
  have throughout := Run.throughout_iff_guarded (fun view (op : MemoryOp) => op.apply view)
    WellFormed (fun view => NonBlankMemories view.record)
    (fun view op => ∀ sourceId request, op = .split sourceId request →
      (∃ writes record, Accepted view op writes record) → request.NonBlank)
    (fun _ op formed => formed.apply op) ?_ .empty (by simp [NonBlankMemories, MemoryView.empty]) ops
  · simp only [get_eq_ok_iff, viewOf_runOps]
    simp only [NonBlankMemories] at throughout
    rw [throughout]
    refine ⟨fun guarded done sourceId request rest split succeeds => ?_,
      fun guarded done op rest split sourceId request same accepted => ?_⟩
    · refine guarded done _ rest split sourceId request rfl ?_
      rw [← viewOf_runOps scope]
      exact (succeeds_iff_accepted scope done _).1 succeeds
    · subst same
      rw [← viewOf_runOps scope] at accepted
      exact guarded done sourceId request rest split ((succeeds_iff_accepted scope done _).2 accepted)
  · intro view op formed fine
    cases planned : op.plan view with
    | error error =>
      -- A refused call changes nothing and is no successful split.
      have refused : op.apply view = view := by simp [MemoryOp.apply, planned]
      rw [refused]
      exact iff_of_true fine (by simp [← plan_eq_ok_iff, planned])
    | ok result =>
      have accepted : Accepted view op result.1 result.2 := plan_eq_ok_iff.1 planned
      rw [apply_of_accepted accepted, nonBlank_accepted_iff formed fine accepted]
      exact forall₂_congr fun _ _ => forall_congr' fun _ => ⟨fun nonBlank _ => nonBlank,
        fun nonBlank => nonBlank ⟨_, _, accepted⟩⟩

/-- A split that names a blank id and no content leaves a blank memory behind. -/
theorem blank_memory_after_split : ∃ record, MemoryStore.get {} " " (runOps {} [.create (convention "a" "Use tabs"),
      .split "a" { actor := "ada", newId := " ", newContent := "" }] {}).storage = .ok record ∧
        isBlank record.entry.id = true ∧ isBlank record.entry.content = true := by
  refine ⟨{ entry := (convention " " "").intoEntry }, ?_⟩
  rw [get_eq_ok_iff, viewOf_runOps]
  decide +kernel

end Codel00p
