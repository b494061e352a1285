import Codel00p.Memory.Uniqueness

/-! What a successful review, edit, evidence addition or merge leaves as it was. -/

namespace Codel00p

open MemoryWrite (apply)
open MemoryAuditEvent (reviewed edited evidenceAdded merged mergedFrom)

/-- The memories that a call on existing ones names. -/
def MemoryOp.named : MemoryOp → List String
  | .review id _ | .edit id _ | .addEvidence id _ _ _ => [id]
  | .merge sourceId targetId _ => [sourceId, targetId]
  | .create _ | .split _ _ => []

/-- What becomes of a memory that a call names: all but the fields the call is about are kept. -/
def MemoryOp.Changes (op : MemoryOp) (id : String) (old new : MemoryEntry) : Prop :=
  match op with
  | .review _ decision => new = { old with status := decision.nextStatus }
  | .edit _ change => new = { old with content := change.content }
  | .addEvidence _ evidence _ _ => new = { old with evidence := old.evidence ++ [evidence] }
  | .merge sourceId _ _ =>
    if id = sourceId then new = { old with status := .archived } else new = { old with tags := new.tags }
  | .create _ | .split _ _ => False

variable {view : MemoryView} {op : MemoryOp} {writes : List MemoryWrite} {record : MemoryRecord}

/-- The writes of an accepted call change what they are about, and nothing else. -/
theorem Accepted.frame (formed : WellFormed view) (accepted : Accepted view op writes record)
    (revises : op.named ≠ []) : (∀ id ∉ op.named, (applyAll writes view).record id = view.record id
        ∧ (applyAll writes view).audit id = view.audit id)
      ∧ (∀ id ∈ op.named, ∃ old new, view.record id = some old ∧ (applyAll writes view).record id = some new
        ∧ op.Changes id old.entry new.entry ∧ view.audit id <+: (applyAll writes view).audit id)
      ∧ (applyAll writes view).index = view.index := by
  cases accepted with
  | create | split => simp [MemoryOp.named] at revises
  | @review id _ current found | @edit id _ current _ found | @addEvidence id _ _ _ current found =>
    have own := formed.keyed id current found
    refine ⟨fun other apart => ?_, fun other named => ?_, rfl⟩
    · have apart : other ≠ id := by simpa [MemoryOp.named] using apart
      simp [applyAll, apply, own, apart, reviewed, edited, evidenceAdded, MemoryEntry.withStatus]
    · obtain rfl : other = id := by simpa [MemoryOp.named] using named
      refine ⟨current, _, found, by
        simp [applyAll, apply, own, MemoryEntry.withStatus]
        rfl, ?_, ?_⟩
      · simp [MemoryOp.Changes, own]
      · simp [applyAll, apply, reviewed, edited, evidenceAdded]
  | @merge sourceId targetId request source target apart found foundTarget =>
    have own := formed.keyed sourceId source found
    have ownTarget := formed.keyed targetId target foundTarget
    refine ⟨fun other outside => ?_, fun other named => ?_, rfl⟩
    · obtain ⟨notSource, notTarget⟩ : other ≠ sourceId ∧ other ≠ targetId := by
        simpa [MemoryOp.named] using outside
      simp [applyAll, apply, own, ownTarget, notSource, notTarget, merged, mergedFrom, MemoryEntry.withStatus]
    · -- The target gets tags, the source is archived, and each logs one event.
      rcases List.mem_pair.1 named with rfl | rfl
      · refine ⟨source, _, found, by
        simp [applyAll, apply, own, MemoryEntry.withStatus]
        rfl, ?_, ?_⟩
        · simp [MemoryOp.Changes, own]
        · simp [applyAll, apply, merged, mergedFrom, apart]
      · refine ⟨target, _, foundTarget, by
        simp [applyAll, apply, own, ownTarget, apart.symm, MemoryEntry.withStatus]
        rfl, ?_, ?_⟩
        · simp [MemoryOp.Changes, apart.symm, ownTarget]
        · simp [applyAll, apply, merged, mergedFrom, apart.symm]

/-- A successful review, edit, evidence addition or merge changes the memories it names, in the fields it is about. -/
theorem memory_frame (scope : StorageScope) (ops : List MemoryOp) (op : MemoryOp) (record : MemoryRecord)
    (revises : op.named ≠ []) (done : (Program.exec (op.run scope) (runOps scope ops {})).1 = .ok record) :
    (∀ id ∉ op.named, storedMemories scope (op.after scope (runOps scope ops {})).storage id
            = storedMemories scope (runOps scope ops {}).storage id
          ∧ MemoryStore.auditLog scope id (op.after scope (runOps scope ops {})).storage
            = MemoryStore.auditLog scope id (runOps scope ops {}).storage) ∧ ∀ id ∈ op.named, ∃ old new,
        storedMemories scope (runOps scope ops {}).storage id = some old
          ∧ storedMemories scope (op.after scope (runOps scope ops {})).storage id = some new
          ∧ op.Changes id old.entry new.entry ∧ MemoryStore.auditLog scope id (runOps scope ops {}).storage
            <+: MemoryStore.auditLog scope id (op.after scope (runOps scope ops {})).storage := by
  have formed := wellFormed_run scope ops
  obtain ⟨reached, ran, -⟩ := runOps_working scope ops {}
  rw [ran] at formed done ⊢
  obtain ⟨after, stepped, seen⟩ := after_working scope reached op
  rw [exec_run] at done
  cases planned : op.plan (viewOf scope reached) with
  | error error =>
    rw [planned] at done
    exact nomatch done
  | ok result =>
    have accepted := plan_eq_ok_iff.1 planned
    obtain ⟨elsewhere, here, -⟩ := accepted.frame formed revises
    rw [← apply_of_accepted accepted, ← seen] at elsewhere here
    rw [stepped, storedMemories_eq_view, storedMemories_eq_view]
    exact ⟨elsewhere, here⟩

def twoConventions : List MemoryOp := [.create (convention "one" "use tabs"), .create (convention "two" "run tests")]

theorem memory_frame_review :
    storedMemories {} (MemoryOp.after {} (.review "one" (.approve "ada")) (runOps {} twoConventions {})).storage "two"
      = storedMemories {} (runOps {} twoConventions {}).storage "two" :=
  ((memory_frame {} twoConventions (.review "one" (.approve "ada"))
    ⟨(convention "one" "use tabs").intoEntry.withStatus .approved⟩ (by decide) (by decide +kernel)).1 "two"
    (by decide)).1

end Codel00p
