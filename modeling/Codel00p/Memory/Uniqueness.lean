import Codel00p.Memory.Index

/-! When no two active memories of a project say the same thing. -/

namespace Codel00p

open Function (update update_of_ne update_self update_eq_self)

structure Rivals (left right : MemoryEntry) : Prop where
  leftActive : isActiveMemoryStatus left.status = true
  rightActive : isActiveMemoryStatus right.status = true
  project : left.project.id = right.project.id
  kind : left.kind = right.kind

def storedMemories (scope : StorageScope) (storage : MemoryStorage) (id : String) :
    Option MemoryRecord :=
  (MemoryStore.get scope id storage).toOption

/-- No two distinct active memories of one project and kind have the same trimmed content. -/
def UniqueMemories (stored : String → Option MemoryRecord) : Prop :=
  ∀ left right leftRecord rightRecord, left ≠ right →
    stored left = some leftRecord → stored right = some rightRecord →
    Rivals leftRecord.entry rightRecord.entry → trim leftRecord.entry.content ≠ trim rightRecord.entry.content

def NoRivalSays (stored : String → Option MemoryRecord) (id : String) (entry : MemoryEntry) : Prop :=
  ∀ other record, other ≠ id → stored other = some record → Rivals record.entry entry →
    trim record.entry.content ≠ trim entry.content

/--
What a call has to respect for the memories to stay unique.

Creation checks this itself, and review, evidence, and merges never bring in content.
An accepted edit must not make an active memory say what a rival says, and an accepted split
must not do so for the new memory or for what stays of its source.
-/
def MemoryOp.AvoidsDuplicate (stored : String → Option MemoryRecord) : MemoryOp → Prop
  | .edit id change => ∀ current, stored id = some current → change.validate = .ok () →
      NoRivalSays stored id { current.entry with content := change.content }
  | .split sourceId request => ∀ source, stored sourceId = some source →
      isActiveMemoryStatus source.entry.status = true → stored request.newId = none →
      -- What stays of the source is its old content unless the request rewrites it.
      let stays := request.updatedSourceContent.getD source.entry.content
      trim request.newContent ≠ trim stays ∧
        NoRivalSays stored sourceId { source.entry with content := request.newContent } ∧
        NoRivalSays stored sourceId { source.entry with content := stays }
  | _ => True

theorem Rivals.symm {left right : MemoryEntry} (rivals : Rivals left right) : Rivals right left :=
  ⟨rivals.rightActive, rivals.leftActive, rivals.project.symm, rivals.kind.symm⟩

variable {stored : String → Option MemoryRecord}

theorem UniqueMemories.remove (unique : UniqueMemories stored) (id : String) :
    UniqueMemories (update stored id none) := by
  intro left right leftRecord rightRecord apart foundLeft foundRight
  have leftOther : left ≠ id := by rintro rfl; simp at foundLeft
  have rightOther : right ≠ id := by rintro rfl; simp at foundRight
  rw [update_of_ne leftOther] at foundLeft
  rw [update_of_ne rightOther] at foundRight
  exact unique left right leftRecord rightRecord apart foundLeft foundRight

theorem uniqueMemories_update (id : String) (record : MemoryRecord) :
    UniqueMemories (update stored id (some record)) ↔
      UniqueMemories (update stored id none) ∧ NoRivalSays stored id record.entry := by
  constructor
  · intro unique
    refine ⟨by simpa using unique.remove id, ?_⟩
    intro other found apart holds
    exact unique other id found record apart (by rw [update_of_ne apart, holds])
      (update_self _ _ _)
  · rintro ⟨unique, silent⟩ left right leftRecord rightRecord apart foundLeft foundRight rivals
    by_cases leftOwn : left = id
    · subst leftOwn
      rw [update_self, Option.some.injEq] at foundLeft
      rw [update_of_ne apart.symm] at foundRight
      subst foundLeft
      exact (silent right rightRecord apart.symm foundRight rivals.symm).symm
    · by_cases rightOwn : right = id
      · subst rightOwn
        rw [update_self, Option.some.injEq] at foundRight
        rw [update_of_ne leftOwn] at foundLeft
        subst foundRight
        exact silent left leftRecord leftOwn foundLeft rivals
      · refine unique left right leftRecord rightRecord apart ?_ ?_ rivals
        · rwa [update_of_ne leftOwn] at foundLeft ⊢
        · rwa [update_of_ne rightOwn] at foundRight ⊢

namespace UniqueMemories

theorem update_iff (unique : UniqueMemories stored) (id : String) (record : MemoryRecord) :
    UniqueMemories (update stored id (some record)) ↔ NoRivalSays stored id record.entry := by
  rw [uniqueMemories_update]
  exact and_iff_right (unique.remove id)

theorem noRivalSays (unique : UniqueMemories stored) {id : String} {current : MemoryRecord}
    {entry : MemoryEntry} (found : stored id = some current)
    (project : entry.project = current.entry.project) (kind : entry.kind = current.entry.kind)
    (content : entry.content = current.entry.content) (active : isActiveMemoryStatus entry.status = true →
      isActiveMemoryStatus current.entry.status = true) : NoRivalSays stored id entry := by
  intro other record apart holds rivals
  rw [content]
  exact unique other id record current apart holds found
    ⟨rivals.leftActive, active rivals.rightActive, project ▸ rivals.project, kind ▸ rivals.kind⟩

end UniqueMemories

variable {view : MemoryView}

theorem noRivalSays_of_check (formed : WellFormed view) {entry : MemoryEntry}
    (unique : view.activeDuplicateId entry = .ok none) (id : String) : NoRivalSays view.record id entry := by
  intro other record _ holds rivals same
  obtain ⟨records, read, _, members⟩ := formed.records
  -- The check reads every stored memory, so it would have stopped at this one.
  simp only [MemoryView.activeDuplicateId, read, Except.bind_eq_ok, Except.pure_eq_ok,
    Except.ok.injEq, exists_eq_left', Option.map_eq_none_iff, List.find?_eq_none] at unique
  apply unique record ((members record).2 ⟨other, holds⟩)
  simp [MemoryStore.sameMemory, rivals.leftActive, rivals.project, rivals.kind, same]

theorem record_split {source : MemoryRecord} {request : MemorySplit}
    (found : view.record source.entry.id = some source) (fresh : view.record request.newId = none) :
    (applyAll ([.put { entry := (MemoryStore.splitInput source.entry request).intoEntry },
        .audit (.created request.newId request.newContent),
        .index (.created request.newId request.newContent)]
        ++ splitUpdate source.entry source.entry.id request
        ++ [.audit (.splitSource source.entry.id request),
            .audit (.splitFrom request.newId request source.entry.id)]) view).record =
      update
        (update view.record source.entry.id (some { entry :=
          { source.entry with
            content := request.updatedSourceContent.getD source.entry.content } }))
        request.newId (some { entry := (MemoryStore.splitInput source.entry request).intoEntry }) := by
  have apart : source.entry.id ≠ request.newId := ne_of_apply_ne view.record (by simp [found, fresh])
  have ownNew : (MemoryStore.splitInput source.entry request).intoEntry.id = request.newId := by
    rw [splitInput_frame]
  -- The two memories are written in the other order, and an unchanged source is not written.
  cases rewritten : request.updatedSourceContent with
  | none =>
    have unchanged : update view.record source.entry.id (some source) = view.record := by
      rw [← found, update_eq_self]
    simp only [splitUpdate, rewritten, Option.getD_none]
    rw [unchanged]
    simp [applyAll, MemoryWrite.apply, ownNew]
  | some updated =>
    simp only [splitUpdate, rewritten, Option.getD_some]
    rw [Function.update_comm apart]
    simp [applyAll, MemoryWrite.apply, ownNew]

/-- What stays of a split and its new memory are unique exactly when the split avoids duplicates. -/
theorem uniqueMemories_split (unique : UniqueMemories stored) {source : MemoryRecord}
    {request : MemorySplit} (stays : String) (found : stored source.entry.id = some source)
    (active : isActiveMemoryStatus source.entry.status = true) (fresh : stored request.newId = none) :
    UniqueMemories (update (update stored source.entry.id (some { entry := { source.entry with content := stays } }))
        request.newId (some { entry := (MemoryStore.splitInput source.entry request).intoEntry })) ↔
      trim request.newContent ≠ trim stays ∧
        NoRivalSays stored source.entry.id { source.entry with content := request.newContent } ∧
        NoRivalSays stored source.entry.id { source.entry with content := stays } := by
  have apart : source.entry.id ≠ request.newId := ne_of_apply_ne stored (by simp [found, fresh])
  have absent : update stored source.entry.id
      (some { entry := { source.entry with content := stays } }) request.newId = none := by
    rw [update_of_ne apart.symm, fresh]
  have gone : update (update stored source.entry.id
      (some { entry := { source.entry with content := stays } })) request.newId none = update
        stored source.entry.id (some { entry := { source.entry with content := stays } }) := by
    rw [← absent, update_eq_self]
  rw [uniqueMemories_update, gone, unique.update_iff, splitInput_frame, and_comm, ← and_assoc]
  refine and_congr_left fun _ => ⟨fun silent => ⟨?_, ?_⟩, ?_⟩
  · -- The source itself is a rival of its new memory.
    exact (silent source.entry.id _ apart (update_self _ _ _) ⟨active, rfl, rfl, rfl⟩).symm
  · intro other record other_apart holds rivals
    have kept : other ≠ request.newId := by
      rintro rfl
      simp [fresh] at holds
    exact silent other record kept (by rw [update_of_ne other_apart, holds])
      ⟨rivals.leftActive, rfl, rivals.project, rivals.kind⟩
  · rintro ⟨differ, silent⟩ other record _ holds rivals
    by_cases own : other = source.entry.id
    · subst own
      rw [update_self, Option.some.injEq] at holds
      subst holds
      exact differ.symm
    · rw [update_of_ne own] at holds
      exact silent other record own holds ⟨rivals.leftActive, active, rivals.project, rivals.kind⟩

/-- From unique memories, a call keeps them unique exactly when it avoids duplicates. -/
theorem uniqueMemories_apply (formed : WellFormed view) (unique : UniqueMemories view.record) (op : MemoryOp) :
    UniqueMemories (op.apply view).record ↔ op.AvoidsDuplicate view.record := by
  cases planned : op.plan view with
  | error error =>
    -- A refused call changes nothing, and only accepted calls have something to avoid.
    have still : op.apply view = view := by simp [MemoryOp.apply, planned]
    rw [still]
    refine iff_of_true unique ?_
    cases op with
    | edit id change =>
      intro current found valid
      simp [plan_eq_ok_iff.2 (Accepted.edit valid found)] at planned
    | split sourceId request =>
      intro source found active fresh
      simp [plan_eq_ok_iff.2 (Accepted.split found active fresh)] at planned
    | _ => trivial
  | ok result =>
    obtain ⟨writes, record⟩ := result
    have accepted := plan_eq_ok_iff.1 planned
    rw [apply_of_accepted accepted]
    cases accepted with
    | create valid fresh checked =>
      refine iff_of_true ?_ trivial
      exact (unique.update_iff _ _).2 (noRivalSays_of_check formed checked _)
    | review found allowed =>
      obtain rfl := formed.keyed _ _ found
      refine iff_of_true ?_ trivial
      refine (unique.update_iff _ _).2 (unique.noRivalSays found rfl rfl rfl fun _ => ?_)
      exact (statusChange_of_ensureTransition "" allowed).active
    | @edit id change current valid found =>
      obtain rfl := formed.keyed _ _ found
      have stepped := unique.update_iff current.entry.id { entry := { current.entry with content := change.content } }
      constructor
      · intro still other found' _
        rw [found, Option.some.injEq] at found'
        subst found'
        exact stepped.1 (by simpa [applyAll, MemoryWrite.apply] using still)
      · intro avoids
        simpa [applyAll, MemoryWrite.apply] using stepped.2 (avoids current found valid)
    | addEvidence found active =>
      obtain rfl := formed.keyed _ _ found
      refine iff_of_true ?_ trivial
      exact (unique.update_iff _ _).2
        (unique.noRivalSays (by simpa using found) (by simp) (by simp) (by simp) (by simp))
    | merge apart found foundTarget project active activeTarget =>
      obtain rfl := formed.keyed _ _ found
      obtain rfl := formed.keyed _ _ foundTarget
      refine iff_of_true ?_ trivial
      -- The target says what it said, and the archived source has no rivals.
      refine (UniqueMemories.update_iff ?_ _ _).2 fun _ _ _ _ rivals => ?_
      · exact (unique.update_iff _ _).2
          (unique.noRivalSays (by simpa using foundTarget) (by simp) (by simp) (by simp) (by simp))
      · cases rivals.rightActive
    | @split sourceId request source found active fresh =>
      obtain rfl := formed.keyed _ _ found
      rw [record_split found fresh, uniqueMemories_split unique _ found active fresh]
      constructor
      · intro avoids source' found' _ _
        rw [found, Option.some.injEq] at found'
        subst found'
        exact avoids
      · intro avoids
        exact avoids source found active fresh

theorem storedMemories_eq_view (scope : StorageScope) (storage : MemoryStorage) :
    storedMemories scope storage = (viewOf scope storage).record := by
  funext id
  rw [storedMemories, get_eq_view, MemoryView.get]
  cases (viewOf scope storage).record id <;> rfl

/--
When active memories stay unique.

They are unique in every repository a run on a working backend goes through exactly when every
edit and every split of the run avoids duplicates in the repository it finds.
-/
theorem unique_throughout_iff_avoidsDuplicate (scope : StorageScope) (ops : List MemoryOp) :
    (∀ done rest, ops = done ++ rest → UniqueMemories (storedMemories scope (runOps scope done {}).storage)) ↔
    ∀ done op rest, ops = done ++ op :: rest →
      op.AvoidsDuplicate (storedMemories scope (runOps scope done {}).storage) := by
  simp only [storedMemories_eq_view, viewOf_runOps]
  have start : UniqueMemories MemoryView.empty.record := by
    intro left right leftRecord rightRecord _ foundLeft
    cases foundLeft
  exact Run.throughout_iff_guarded (fun view op => MemoryOp.apply op view) WellFormed
    (fun view => UniqueMemories view.record) (fun view op => op.AvoidsDuplicate view.record)
    (fun _ op formed => formed.apply op)
    (fun _ op formed unique => uniqueMemories_apply formed unique op) .empty start ops

def convention (id content : String) : MemoryCandidateInput :=
  { id, project := { id := "p", name := "Example" }, kind := .convention, content,
    source := { sessionId := "s", turnId := "t" } }

/-- An edit and a split can each make two active memories say the same. -/
theorem not_unique_after_edit_or_split :
    ¬UniqueMemories (storedMemories {} (runOps {} [.create (convention "a" "Use tabs"),
      .create (convention "b" "Use spaces"), .edit "b" { actor := "dev", content := "Use tabs" }] {}).storage) ∧
    ¬UniqueMemories (storedMemories {} (runOps {} [.create (convention "a" "Use tabs"),
      .split "a" { actor := "dev", newId := "b", newContent := "Use tabs" }] {}).storage) := by
  constructor
  · intro unique
    exact unique "a" "b" _ _ (by decide) rfl rfl ⟨rfl, rfl, rfl, rfl⟩ rfl
  · intro unique
    exact unique "a" "b" _ _ (by decide) rfl rfl ⟨rfl, rfl, rfl, rfl⟩ rfl

end Codel00p
