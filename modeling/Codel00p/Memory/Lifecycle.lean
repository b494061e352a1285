import Codel00p.Memory.Invariant

/-! The review lifecycle: which status changes are made, by which calls, and what the trail tells. -/

namespace Codel00p

/-- The status changes the repository makes, with the call and the memory they are made by and to. -/
inductive StatusChange : MemoryOp → String → MemoryStatus → MemoryStatus → Prop
  | approve {id actor : String} : StatusChange (.review id (.approve actor)) id .candidate .approved
  | reject {id actor reason : String} :
      StatusChange (.review id (.reject actor reason)) id .candidate .rejected
  | archive {id actor reason : String} :
      StatusChange (.review id (.archive actor reason)) id .approved .archived
  | merge {sourceId targetId : String} {request : MemoryMerge} {status : MemoryStatus}
      (active : isActiveMemoryStatus status = true) :
      StatusChange (.merge sourceId targetId request) sourceId status .archived

theorem statusChange_of_ensureTransition (id : String) {decision : ReviewDecision}
    {status : MemoryStatus} (allowed : ensureTransition status decision.nextStatus = .ok ()) :
    StatusChange (.review id decision) id status decision.nextStatus := by
  cases decision with
  | approve actor => cases status <;> first | exact .approve | cases allowed
  | reject actor reason => cases status <;> first | exact .reject | cases allowed
  | archive actor reason => cases status <;> first | exact .archive | cases allowed

theorem StatusChange.active {op : MemoryOp} {id : String} {before after : MemoryStatus}
    (change : StatusChange op id before after) : isActiveMemoryStatus before = true := by
  cases change with
  | merge active => exact active
  | _ => rfl

/-- Stored memories stay stored and change status as the call may, and new ones are candidates. -/
structure Evolves (op : MemoryOp) (before after : String → Option MemoryRecord) : Prop where
  kept : ∀ id record, before id = some record → ∃ changed, after id = some changed ∧
    (changed.entry.status = record.entry.status ∨ StatusChange op id record.entry.status changed.entry.status)
  born : ∀ id record, before id = none → after id = some record → record.entry.status = .candidate

namespace Evolves

variable {op : MemoryOp} {before middle : String → Option MemoryRecord}

theorem refl : Evolves op before before where
  kept _ record stored := ⟨record, stored, .inl rfl⟩
  born _ _ absent stored := by simp [absent] at stored

theorem add (rest : Evolves op before middle) (record : MemoryRecord)
    (fresh : before record.entry.id = none) (candidate : record.entry.status = .candidate) :
    Evolves op before (Function.update middle record.entry.id (some record)) where
  kept id stored holds := by
    have apart : id ≠ record.entry.id := by
      rintro rfl
      simp [fresh] at holds
    rw [Function.update_of_ne apart]
    exact rest.kept id stored holds
  born id stored absent holds := by
    by_cases own : id = record.entry.id
    · subst own
      rw [Function.update_self, Option.some.injEq] at holds
      rw [← holds, candidate]
    · rw [Function.update_of_ne own] at holds
      exact rest.born id stored absent holds

theorem put (rest : Evolves op before middle) {record current : MemoryRecord}
    (found : before record.entry.id = some current) (change : record.entry.status = current.entry.status ∨
      StatusChange op record.entry.id current.entry.status record.entry.status) :
    Evolves op before (Function.update middle record.entry.id (some record)) where
  kept id stored holds := by
    by_cases own : id = record.entry.id
    · subst own
      rw [found, Option.some.injEq] at holds
      subst holds
      exact ⟨record, Function.update_self _ _ _, change⟩
    · rw [Function.update_of_ne own]
      exact rest.kept id stored holds
  born id stored absent holds := by
    have apart : id ≠ record.entry.id := by
      rintro rfl
      simp [found] at absent
    rw [Function.update_of_ne apart] at holds
    exact rest.born id stored absent holds

end Evolves

variable {view : MemoryView}

/-- A call keeps every stored memory, with its status or with an allowed change of it. -/
theorem evolves_apply (formed : WellFormed view) (op : MemoryOp) : Evolves op view.record (op.apply view).record := by
  rcases apply_cases view op with refused | ⟨writes, record, accepted, effect⟩
  · rw [refused]
    exact .refl
  rw [effect]
  cases accepted with
  | create valid fresh unique =>
    exact Evolves.refl.add _ (by simpa [MemoryCandidateInput.intoEntry_eq] using fresh)
      (by simp [MemoryCandidateInput.intoEntry_eq])
  | review found allowed =>
    obtain rfl := formed.keyed _ _ found
    exact Evolves.refl.put found (.inr (statusChange_of_ensureTransition _ allowed))
  | edit valid found | addEvidence found =>
    obtain rfl := formed.keyed _ _ found
    exact Evolves.refl.put (by simpa using found) (.inl (by simp))
  | merge apart found foundTarget project active activeTarget =>
    obtain rfl := formed.keyed _ _ found
    obtain rfl := formed.keyed _ _ foundTarget
    refine Evolves.put (Evolves.refl.put (by simpa using foundTarget) (.inl (by simp))) found ?_
    exact .inr (.merge active)
  | @split sourceId request source found active fresh =>
    obtain rfl := formed.keyed _ _ found
    have added : Evolves (.split source.entry.id request) view.record _ :=
      Evolves.refl.add { entry := (MemoryStore.splitInput source.entry request).intoEntry }
        (by simpa [splitInput_frame] using fresh) (by rw [splitInput_frame])
    rcases request with ⟨actor, newId, newContent, _ | updated, reason⟩
    · exact added
    · exact added.put (by simpa using found) (.inl (by simp))

theorem get_eq_ok_iff (scope : StorageScope) (id : String) (storage : MemoryStorage) (record : MemoryRecord) :
    MemoryStore.get scope id storage = .ok record ↔ (viewOf scope storage).record id = some record := by
  rw [get_eq_view, MemoryView.get_eq_ok]

theorem viewOf_runOps_snoc (scope : StorageScope) (done : List MemoryOp) (op : MemoryOp) :
    viewOf scope (runOps scope (done ++ [op]) {}).storage =
      op.apply (viewOf scope (runOps scope done {}).storage) := by
  simp [viewOf_runOps]

theorem inactive_stays {view : MemoryView} (formed : WellFormed view) (ops : List MemoryOp)
    {id : String} {before : MemoryRecord} (stored : view.record id = some before)
    (inactive : isActiveMemoryStatus before.entry.status = false) :
    ∃ after, (ops.foldl (fun view op => op.apply view) view).record id = some after ∧
      after.entry.status = before.entry.status := by
  -- No allowed change leaves an inactive status, so each step keeps it.
  induction ops generalizing view before with
  | nil => exact ⟨before, stored, rfl⟩
  | cons op ops ih =>
    obtain ⟨next, found, same | change⟩ := (evolves_apply formed op).kept id before stored
    · obtain ⟨after, reached, status⟩ := ih (formed.apply op) found (same ▸ inactive)
      exact ⟨after, reached, status.trans same⟩
    · simp [change.active] at inactive

/--
The lifecycle of memories on a working backend.

After any calls the stored status is the one the audit trail tells.
Each call keeps every memory, changes its status only as the lifecycle allows,
and brings memories in as candidates only.
A memory that is not active keeps its status from then on.
-/
theorem lifecycle (scope : StorageScope) (ops : List MemoryOp) :
    (∀ id record, MemoryStore.get scope id (runOps scope ops {}).storage = .ok record →
      statusFromLog (MemoryStore.auditLog scope id (runOps scope ops {}).storage) = some record.entry.status) ∧
    (∀ done op rest, ops = done ++ op :: rest → ∀ id,
      (∀ before, MemoryStore.get scope id (runOps scope done {}).storage = .ok before →
        ∃ after, MemoryStore.get scope id (runOps scope (done ++ [op]) {}).storage = .ok after ∧
          (after.entry.status = before.entry.status ∨ StatusChange op id before.entry.status after.entry.status)) ∧
      (∀ after, MemoryStore.get scope id (runOps scope done {}).storage = .error (.memoryNotFound id) →
        MemoryStore.get scope id (runOps scope (done ++ [op]) {}).storage = .ok after →
          after.entry.status = .candidate)) ∧ (∀ done rest, ops = done ++ rest → ∀ id before,
      MemoryStore.get scope id (runOps scope done {}).storage = .ok before →
      isActiveMemoryStatus before.entry.status = false →
        ∃ after, MemoryStore.get scope id (runOps scope ops {}).storage = .ok after ∧
          after.entry.status = before.entry.status) := by
  refine ⟨?_, ?_, ?_⟩
  · intro id record stored
    exact (wellFormed_run scope ops).status id record ((get_eq_ok_iff ..).1 stored)
  · intro done op rest _ id
    have evolves := evolves_apply (wellFormed_run scope done) op
    simp only [get_eq_ok_iff, viewOf_runOps_snoc]
    refine ⟨evolves.kept id, fun after absent => evolves.born id after ?_⟩
    rw [get_eq_view] at absent
    cases missing : (viewOf scope (runOps scope done {}).storage).record id with
    | none => rfl
    | some record => simp [MemoryView.get, missing] at absent
  · intro done rest split id before stored inactive
    rw [get_eq_ok_iff] at stored
    obtain ⟨after, reached, same⟩ := inactive_stays (wellFormed_run scope done) rest stored inactive
    refine ⟨after, ?_, same⟩
    rw [get_eq_ok_iff, viewOf_runOps, split, List.foldl_append, ← viewOf_runOps scope done]
    exact reached

end Codel00p
