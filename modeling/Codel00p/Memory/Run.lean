import Codel00p.Lib.Except
import Codel00p.Memory.Plan

/-! Runs of repository calls, what an accepted call writes, and runs on a working backend. -/

namespace Codel00p

/-- The writes and the result of a call that passes all its checks. -/
inductive Accepted (view : MemoryView) : MemoryOp → List MemoryWrite → MemoryRecord → Prop
  | create {input : MemoryCandidateInput} (valid : input.validate = .ok ())
      (fresh : view.record input.id = none)
      (unique : view.activeDuplicateId input.intoEntry = .ok none) :
      Accepted view (.create input)
        [.put { entry := input.intoEntry },
         .audit (.created input.intoEntry.id input.intoEntry.content),
         .index (.created input.intoEntry.id input.intoEntry.content)] { entry := input.intoEntry }
  | review {id : String} {decision : ReviewDecision} {current : MemoryRecord}
      (found : view.record id = some current)
      (allowed : ensureTransition current.entry.status decision.nextStatus = .ok ()) :
      Accepted view (.review id decision)
        [.put { entry := current.entry.withStatus decision.nextStatus },
         .audit (.reviewed id decision)] { entry := current.entry.withStatus decision.nextStatus }
  | edit {id : String} {change : MemoryEdit} {current : MemoryRecord}
      (valid : change.validate = .ok ()) (found : view.record id = some current) :
      Accepted view (.edit id change)
        [.put { entry := replaceContent current.entry change.content },
         .audit (.edited id change current.entry.content change.content)]
        { entry := replaceContent current.entry change.content }
  | addEvidence {id : String} {evidence : MemoryEvidence} {actor : String}
      {reason : Option String} {current : MemoryRecord} (found : view.record id = some current)
      (active : isActiveMemoryStatus current.entry.status = true) :
      Accepted view (.addEvidence id evidence actor reason)
        [.put { entry := appendEvidence current.entry evidence },
         .audit (.evidenceAdded id actor evidence.reference reason)]
        { entry := appendEvidence current.entry evidence }
  | merge {sourceId targetId : String} {request : MemoryMerge} {source target : MemoryRecord}
      (apart : sourceId ≠ targetId) (found : view.record sourceId = some source)
      (foundTarget : view.record targetId = some target)
      (project : source.entry.project.id = target.entry.project.id)
      (active : isActiveMemoryStatus source.entry.status = true)
      (activeTarget : isActiveMemoryStatus target.entry.status = true) :
      Accepted view (.merge sourceId targetId request)
        [.put { entry := unionTags target.entry source.entry.tags },
         .put { entry := source.entry.withStatus .archived },
         .audit (.merged sourceId request targetId), .audit (.mergedFrom targetId request sourceId)]
        { entry := unionTags target.entry source.entry.tags }
  | split {sourceId : String} {request : MemorySplit} {source : MemoryRecord}
      (found : view.record sourceId = some source)
      (active : isActiveMemoryStatus source.entry.status = true)
      (fresh : view.record request.newId = none) :
      Accepted view (.split sourceId request)
        ([.put { entry := (MemoryStore.splitInput source.entry request).intoEntry },
          .audit (.created request.newId request.newContent),
          .index (.created request.newId request.newContent)]
          ++ splitUpdate source.entry sourceId request
          ++ [.audit (.splitSource sourceId request), .audit (.splitFrom request.newId request sourceId)])
        { entry := (MemoryStore.splitInput source.entry request).intoEntry }

variable {view : MemoryView} {record : MemoryRecord}

@[simp] theorem MemoryView.get_eq_ok {id : String} : view.get id = .ok record ↔ view.record id = some record := by
  unfold MemoryView.get
  cases view.record id <;> simp

@[simp] theorem MemoryView.taken_eq_ok {id : String} {taken : Bool} :
    view.taken id = .ok taken ↔ (view.record id).isSome = taken := by
  simp [MemoryView.taken]

/-- The plan of a call gives writes exactly when the call is accepted with them. -/
theorem plan_eq_ok_iff {op : MemoryOp} {writes : List MemoryWrite} :
    op.plan view = .ok (writes, record) ↔ Accepted view op writes record := by
  constructor
  · -- Peeling the checks off the plan leaves exactly the fields of the matching constructor.
    intro planned
    cases op
    all_goals simp only [MemoryOp.plan, Except.bind_eq_ok, Except.check_eq_ok, MemoryView.get_eq_ok,
      MemoryView.taken_eq_ok, splitInput_content, Bool.not_eq_true, Bool.not_eq_false', ne_eq, not_not] at planned
    case create =>
      obtain ⟨_, valid, taken, rfl, free, _ | existingId, unique, ⟨⟩⟩ := planned
      exact .create valid (by simpa using free) unique
    case review =>
      obtain ⟨current, found, _, allowed, ⟨⟩⟩ := planned
      exact .review found allowed
    case edit =>
      obtain ⟨_, valid, current, found, ⟨⟩⟩ := planned
      exact .edit valid found
    case addEvidence =>
      obtain ⟨current, found, active, ⟨⟩⟩ := planned
      exact .addEvidence found active
    case merge =>
      obtain ⟨apart, source, found, target, foundTarget, project, active, activeTarget, ⟨⟩⟩ := planned
      exact .merge apart found foundTarget project active activeTarget
    case split =>
      obtain ⟨source, found, active, taken, rfl, free, ⟨⟩⟩ := planned
      exact .split found active (by simpa using free)
  · intro accepted
    cases accepted <;> simp only [MemoryOp.plan, Except.bind_eq_ok, Except.check_eq_ok, MemoryView.get_eq_ok,
      MemoryView.taken_eq_ok, splitInput_content] <;> simp [Except.pure_eq_ok, *]

variable (scope : StorageScope)

/-- Run a call and keep the backend it leaves behind. -/
def MemoryOp.after (op : MemoryOp) (backend : Backend) : Backend := (Program.exec (op.run scope) backend).2

/-- The backend a run of calls leaves behind. -/
def runOps (ops : List MemoryOp) (backend : Backend) : Backend :=
  ops.foldl (fun backend op => op.after scope backend) backend

def MemoryView.empty : MemoryView := { record := fun _ => none, audit := fun _ => [], index := [] }

def applyAll (writes : List MemoryWrite) (view : MemoryView) : MemoryView :=
  writes.foldl (fun view write => write.apply view) view

theorem applyAll_append (first second : List MemoryWrite) (view : MemoryView) :
    applyAll (first ++ second) view = applyAll second (applyAll first view) :=
  List.foldl_append

/-- The readers' view after a call whose writes all succeed. -/
def MemoryOp.apply (op : MemoryOp) (view : MemoryView) : MemoryView :=
  match op.plan view with
  | .ok (writes, _) => applyAll writes view
  | .error _ => view

theorem apply_of_accepted {op : MemoryOp} {writes : List MemoryWrite} (accepted : Accepted view op writes record) :
    op.apply view = applyAll writes view := by
  simp [MemoryOp.apply, plan_eq_ok_iff.2 accepted]

theorem apply_cases (view : MemoryView) (op : MemoryOp) :
    op.apply view = view ∨ ∃ writes record, Accepted view op writes record ∧
      op.apply view = applyAll writes view := by
  cases planned : op.plan view with
  | error error => simp [MemoryOp.apply, planned]
  | ok result => exact .inr ⟨_, _, plan_eq_ok_iff.1 planned, by simp [MemoryOp.apply, planned]⟩

theorem performAll_working (record : MemoryRecord) (writes : List MemoryWrite) (storage : MemoryStorage) :
    ∃ reached, performAll scope record writes { storage } = (.ok record, { storage := reached }) ∧
      viewOf scope reached = applyAll writes (viewOf scope storage) := by
  induction writes generalizing storage with
  | nil => exact ⟨storage, rfl, rfl⟩
  | cons write writes ih =>
    obtain ⟨reached, performed, seen⟩ := ih (write.perform scope storage)
    exact ⟨reached, performed, by rw [seen, viewOf_perform]; rfl⟩

theorem after_working (storage : MemoryStorage) (op : MemoryOp) :
    ∃ reached, op.after scope { storage } = { storage := reached } ∧
      viewOf scope reached = op.apply (viewOf scope storage) := by
  unfold MemoryOp.after MemoryOp.apply
  rw [exec_run]
  cases op.plan (viewOf scope storage) with
  | error error => exact ⟨storage, rfl, rfl⟩
  | ok result =>
    obtain ⟨reached, performed, seen⟩ := performAll_working scope result.2 result.1 storage
    exact ⟨reached, congrArg Prod.snd performed, seen⟩

theorem runOps_working (ops : List MemoryOp) (storage : MemoryStorage) :
    ∃ reached, runOps scope ops { storage } = { storage := reached } ∧
      viewOf scope reached = ops.foldl (fun view op => op.apply view) (viewOf scope storage) := by
  induction ops generalizing storage with
  | nil => exact ⟨storage, rfl, rfl⟩
  | cons op ops ih =>
    obtain ⟨next, stepped, seen⟩ := after_working scope storage op
    obtain ⟨reached, run, view⟩ := ih next
    refine ⟨reached, ?_, by rw [view, seen]; rfl⟩
    rw [← run]
    exact congrArg (runOps scope ops) stepped

theorem viewOf_runOps (ops : List MemoryOp) : viewOf scope (runOps scope ops {}).storage =
      ops.foldl (fun view op => op.apply view) MemoryView.empty := by
  obtain ⟨reached, run, seen⟩ := runOps_working scope ops {}
  rw [run]
  exact seen

end Codel00p
