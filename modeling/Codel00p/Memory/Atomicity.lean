import Codel00p.Memory.Uniqueness

/-! What a call that fails part of the way leaves behind. -/

namespace Codel00p

open Program (exec)

variable (scope : StorageScope)

/-- Two storages that no later read and no later creation can tell apart. -/
structure Indistinguishable (before after : MemoryStorage) : Prop where
  get : ∀ id, MemoryStore.get scope id after = MemoryStore.get scope id before
  list : ∀ filter, MemoryStore.list scope filter after = MemoryStore.list scope filter before
  retrieve : ∀ toLowercase query,
    MemoryStore.retrieve scope toLowercase query after = MemoryStore.retrieve scope toLowercase query before
  auditLog : ∀ id, MemoryStore.auditLog scope id after = MemoryStore.auditLog scope id before
  revisions : ∀ id, MemoryStore.revisions scope id after = MemoryStore.revisions scope id before
  create : ∀ input faults,
    (exec (MemoryStore.createCandidate scope input) { storage := after, faults }).1 =
      (exec (MemoryStore.createCandidate scope input) { storage := before, faults }).1

theorem performAll_result (record : MemoryRecord) (writes : List MemoryWrite)
    (left right : MemoryStorage) (faults : List Bool) :
    (performAll scope record writes { storage := left, faults }).1 =
      (performAll scope record writes { storage := right, faults }).1 := by
  induction writes generalizing left right faults with
  | nil => rfl
  | cons write writes ih =>
    rcases faults with _ | ⟨_ | _, faults⟩
    · exact ih _ _ _
    · exact ih _ _ _
    · rfl

theorem indistinguishable_of_view {before after : MemoryStorage}
    (same : viewOf scope after = viewOf scope before) : Indistinguishable scope before after where
  get id := by rw [get_eq_view, get_eq_view, same]
  list filter := by rw [MemoryStore.list, MemoryStore.list, records_eq_view, records_eq_view, same]
  retrieve toLowercase query := by
    rw [MemoryStore.retrieve, MemoryStore.retrieve, records_eq_view, records_eq_view, same]
  auditLog id := congrFun (congrArg MemoryView.audit same) id
  revisions id := by
    have trail : MemoryStore.auditLog scope id after = MemoryStore.auditLog scope id before :=
      congrFun (congrArg MemoryView.audit same) id
    rw [MemoryStore.revisions, MemoryStore.revisions, get_eq_view, get_eq_view, same, trail]
  create input faults := by
    have run := exec_run scope (.create input)
    simp only [MemoryOp.run] at run
    rw [run, run, same]
    cases MemoryOp.plan (viewOf scope before) (.create input) with
    | error error => rfl
    | ok result => exact performAll_result scope result.2 result.1 after before faults

theorem record_eq_of_indistinguishable {before after : MemoryStorage}
    (same : Indistinguishable scope before after) (id : String) :
    (viewOf scope after).record id = (viewOf scope before).record id := by
  have read := congrArg Except.toOption (same.get id)
  have stored := fun storage => congrFun (storedMemories_eq_view scope storage) id
  rw [← stored, ← stored]
  exact read

variable {record : MemoryRecord} {writes : List MemoryWrite}

theorem performAll_failed {before after : Backend} {error : MemoryError}
    (failed : performAll scope record writes before = (.error error, after)) : ∃ count rest, count < writes.length ∧
      before.faults = List.replicate count false ++ true :: rest ∧
      viewOf scope after.storage = applyAll (writes.take count) (viewOf scope before.storage) := by
  induction writes generalizing before with
  | nil => cases failed
  | cons write writes ih =>
    rcases before with ⟨storage, _ | ⟨_ | _, faults⟩⟩
    · obtain ⟨count, rest, _, faults, _⟩ := ih failed
      simp at faults
    · obtain ⟨count, rest, below, split, seen⟩ := ih failed
      refine ⟨count + 1, rest, by simpa using below, ?_, ?_⟩
      · simpa [List.replicate_succ] using split
      · rw [seen, viewOf_perform]
        rfl
    · cases failed
      exact ⟨0, faults, by simp, rfl, rfl⟩

theorem mem_foldl_addMissingTag (extra tags : List String) (tag : String) :
    tag ∈ extra.foldl addMissingTag tags ↔ tag ∈ tags ∨ tag ∈ extra := by
  induction extra generalizing tags with
  | nil => simp
  | cons first extra ih =>
    rw [List.foldl_cons, ih, addMissingTag]
    by_cases present : first ∈ tags
    · have found : tags.any (· == first) = true := by simpa using present
      rw [if_pos found]
      grind
    · have missing : ¬tags.any (· == first) = true := by simpa using present
      rw [if_neg missing]
      simp [or_assoc]

theorem foldl_addMissingTag_eq_iff (extra tags : List String) :
    extra.foldl addMissingTag tags = tags ↔ extra ⊆ tags := by
  constructor
  · intro same tag member
    rw [← same, mem_foldl_addMissingTag]
    exact .inr member
  · intro known
    induction extra with
    | nil => rfl
    | cons first extra ih =>
      have found : tags.any (· == first) = true := by simpa using known List.mem_cons_self
      rw [List.foldl_cons, addMissingTag, if_pos found]
      exact ih fun tag member => known (.tail _ member)

def MemoryOp.FirstWriteRepeats (stored : String → Option MemoryRecord) : MemoryOp → Prop
  | .edit id change => ∃ current, stored id = some current ∧ current.entry.content = change.content
  | .merge sourceId targetId _ => ∃ source target, stored sourceId = some source ∧
      stored targetId = some target ∧ source.entry.tags ⊆ target.entry.tags
  | _ => False

theorem record_applyAll_of_unwritten {id : String}
    (unwritten : ∀ record, MemoryWrite.put record ∈ writes → record.entry.id ≠ id)
    (view : MemoryView) : (applyAll writes view).record id = view.record id := by
  induction writes generalizing view with
  | nil => rfl
  | cons write writes ih =>
    have rest := ih fun record member => unwritten record (.tail _ member)
    have first : (write.apply view).record id = view.record id := by
      cases write with
      | put record =>
        exact Function.update_of_ne (unwritten record List.mem_cons_self).symm _ _
      | audit event => rfl
      | index event => rfl
    exact (rest _).trans first

variable {view : MemoryView}

theorem record_changed_by_put {id : String} (own : record.entry.id = id) (differs : view.record id ≠ some record)
    (unwritten : ∀ other, MemoryWrite.put other ∈ writes → other.entry.id ≠ id) (count : Nat) :
    (applyAll (.put record :: writes.take count) view).record id ≠ view.record id := by
  subst own
  have kept : (applyAll (writes.take count) ((MemoryWrite.put record).apply view)).record
      record.entry.id = ((MemoryWrite.put record).apply view).record record.entry.id :=
    record_applyAll_of_unwritten (fun other member => unwritten other (List.mem_of_mem_take member)) _
  have shown : (applyAll (.put record :: writes.take count) view).record record.entry.id =
      some record := kept.trans (Function.update_self _ _ _)
  rw [shown]
  exact differs.symm

theorem apply_put_of_stored (found : view.record record.entry.id = some record) :
    (MemoryWrite.put record).apply view = view := by
  simp only [MemoryWrite.apply]
  rw [← found, Function.update_eq_self]

section

variable (keyed : ∀ id record, view.record id = some record → record.entry.id = id)

include keyed

theorem first_write_of_repeats
    {op : MemoryOp} (accepted : Accepted view op writes record) (repeats : op.FirstWriteRepeats view.record) :
    applyAll (writes.take 1) view = view := by
  cases accepted with
  | @edit id change current valid found =>
    obtain rfl := keyed _ _ found
    obtain ⟨other, found', content⟩ := repeats
    rw [found, Option.some.injEq] at found'
    subst found'
    refine apply_put_of_stored ?_
    simp [← content, found]
  | @merge sourceId targetId request source target apart found foundTarget =>
    obtain rfl := keyed _ _ foundTarget
    obtain ⟨source', target', found', foundTarget', known⟩ := repeats
    rw [found, Option.some.injEq] at found'
    rw [foundTarget, Option.some.injEq] at foundTarget'
    subst found' foundTarget'
    refine apply_put_of_stored ?_
    simp [(foldl_addMissingTag_eq_iff _ _).2 known, foundTarget]
  | _ => cases repeats

/-- Apart from a repeating first write, a call that stops part of the way has changed a memory. -/
theorem record_changed_of_partial
    {op : MemoryOp} (accepted : Accepted view op writes record) {count : Nat} (below : count + 1 < writes.length)
    (changes : ¬(count = 0 ∧ op.FirstWriteRepeats view.record)) :
    ∃ id, (applyAll (writes.take (count + 1)) view).record id ≠ view.record id := by
  cases accepted with
  | @create input valid fresh unique =>
    refine ⟨input.intoEntry.id, record_changed_by_put rfl ?_ (by simp) count⟩
    simp [MemoryCandidateInput.intoEntry_eq, fresh]
  | @review id decision current found allowed =>
    have own := keyed _ _ found
    refine ⟨id, record_changed_by_put (by exact own) ?_ (by simp) count⟩
    -- No allowed review leaves the status as it is.
    rw [found]
    intro same
    have status : current.entry.status = decision.nextStatus :=
      congrArg (fun record => record.entry.status) (Option.some.inj same)
    rw [← status] at allowed
    cases which : current.entry.status <;> rw [which] at allowed <;> cases allowed
  | @edit id change current valid found =>
    refine ⟨id, record_changed_by_put (by simpa using keyed _ _ found) ?_ (by simp) count⟩
    rw [found, replaceContent_eq]
    intro same
    have content : current.entry.content = change.content :=
      congrArg (fun record => record.entry.content) (Option.some.inj same)
    exact changes ⟨by simp at below; omega, current, found, content⟩
  | @addEvidence id evidence actor reason current found active =>
    refine ⟨id, record_changed_by_put (by simpa using keyed _ _ found) ?_ (by simp) count⟩
    rw [found, appendEvidence_eq]
    intro same
    have links : current.entry.evidence = current.entry.evidence ++ [evidence] :=
      congrArg (fun record => record.entry.evidence) (Option.some.inj same)
    simp at links
  | @merge sourceId targetId request source target apart found foundTarget project active _ =>
    cases count with
    | zero =>
      -- Only the target has been written, so its tags are what can differ.
      have own := keyed _ _ found
      refine ⟨targetId, record_changed_by_put (by simpa using keyed _ _ foundTarget) ?_
        (by simp [MemoryEntry.withStatus, own, apart]) 0⟩
      rw [foundTarget, unionTags_eq]
      intro same
      have tags : target.entry.tags = source.entry.tags.foldl addMissingTag target.entry.tags :=
        congrArg (fun record => record.entry.tags) (Option.some.inj same)
      exact changes ⟨rfl, source, target, found, foundTarget, (foldl_addMissingTag_eq_iff _ _).1 tags.symm⟩
    | succ count =>
      -- The source has been archived, and nothing after that stores a memory.
      have untouched : ((MemoryWrite.put { entry := unionTags target.entry source.entry.tags }).apply
          view).record sourceId = view.record sourceId := by
        obtain rfl := keyed _ _ foundTarget
        simp [MemoryWrite.apply, Function.update_of_ne apart]
      refine ⟨sourceId, ?_⟩
      rw [← untouched]
      have own := keyed _ _ found
      refine record_changed_by_put (by exact own) ?_ (by simp) count
      rw [untouched, found]
      intro same
      have status : source.entry.status = .archived :=
        congrArg (fun record => record.entry.status) (Option.some.inj same)
      rw [status] at active
      cases active
  | @split sourceId request source found active fresh =>
    refine ⟨request.newId, record_changed_by_put (by rw [splitInput_frame]) (by simp [fresh]) ?_ count⟩
    -- The only other memory a split stores is its source.
    have own := keyed _ _ found
    intro other member same
    have stored : other.entry.id = sourceId := by
      unfold splitUpdate at member
      cases rewritten : request.updatedSourceContent with
      | none => simp [rewritten] at member
      | some updated =>
        simp only [rewritten, replaceContent_eq] at member
        simp at member
        rw [member, ← own]
    rw [stored] at same
    rw [same, fresh] at found
    cases found

end

/-- Every stored memory is stored under its own id. -/
def Keyed (view : MemoryView) : Prop := ∀ id record, view.record id = some record → record.entry.id = id

theorem Keyed.apply (keyed : Keyed view) (write : MemoryWrite) : Keyed (write.apply view) := by
  intro id stored holds
  cases write with
  | put record =>
    by_cases own : id = record.entry.id
    · subst own
      simp only [MemoryWrite.apply, Function.update_self, Option.some.injEq] at holds
      rw [holds]
    · simp only [MemoryWrite.apply, Function.update_of_ne own] at holds
      exact keyed id stored holds
  | audit | index => exact keyed id stored holds

theorem keyed_performAll (record : MemoryRecord) (writes : List MemoryWrite) {backend : Backend}
    (keyed : Keyed (viewOf scope backend.storage)) :
    Keyed (viewOf scope (performAll scope record writes backend).2.storage) := by
  induction writes generalizing backend with
  | nil => exact keyed
  | cons write writes ih =>
    have next : Keyed (viewOf scope (write.perform scope backend.storage)) := by
      rw [viewOf_perform]
      exact keyed.apply write
    rcases backend with ⟨storage, _ | ⟨_ | _, faults⟩⟩
    · exact ih next
    · exact ih next
    · exact keyed

theorem keyed_runOps (ops : List MemoryOp) (faults : List Bool) :
    Keyed (viewOf scope (runOps scope ops { faults }).storage) := by
  refine Run.invariant _ (fun backend : Backend => Keyed (viewOf scope backend.storage))
    (fun backend op keyed => ?_) ?_ ops
  · show Keyed (viewOf scope (exec (op.run scope) backend).2.storage)
    rw [exec_run]
    cases op.plan (viewOf scope backend.storage) with
    | error error => exact keyed
    | ok result => exact keyed_performAll scope result.2 result.1 keyed
  · intro id record stored
    cases stored

/--
When a failing call leaves no trace.

From any repository a run reaches, under any faults, a call that returns an error cannot be told
apart from no call exactly when its checks refuse it, when its first write fails, or when its
second write fails after a first one that stored a memory as it already was.
-/
theorem failed_call_unnoticed_iff (ops : List MemoryOp) (faults : List Bool) (op : MemoryOp)
    {error : MemoryError} {after : Backend}
    (failed : exec (op.run scope) (runOps scope ops { faults }) = (.error error, after)) :
    Indistinguishable scope (runOps scope ops { faults }).storage after.storage ↔ (∃ refusal, (exec (op.run scope)
        { storage := (runOps scope ops { faults }).storage }).1 = .error refusal) ∨
      (∃ rest, (runOps scope ops { faults }).faults = true :: rest) ∨
      (∃ rest, (runOps scope ops { faults }).faults = false :: true :: rest) ∧
        op.FirstWriteRepeats (storedMemories scope (runOps scope ops { faults }).storage) := by
  have keyed := keyed_runOps scope ops faults
  generalize runOps scope ops { faults } = before at failed keyed ⊢
  rw [exec_run] at failed
  cases planned : op.plan (viewOf scope before.storage) with
  | error refusal =>
    -- A refused call has written nothing, and it is refused without faults as well.
    rw [planned] at failed
    cases failed
    exact iff_of_true (indistinguishable_of_view scope rfl) (.inl ⟨_, by rw [exec_run, planned]; rfl⟩)
  | ok result =>
    obtain ⟨writes, record⟩ := result
    rw [planned] at failed
    have accepted := plan_eq_ok_iff.1 planned
    obtain ⟨reached, performed, _⟩ := performAll_working scope record writes before.storage
    have allowed : ∀ refusal, (exec (op.run scope) { storage := before.storage }).1 ≠
        .error refusal := by
      intro refusal
      rw [exec_run, planned]
      simp [carryOut, performed]
    obtain ⟨count, rest, below, split, seen⟩ := performAll_failed scope failed
    rw [storedMemories_eq_view, split]
    cases count with
    | zero => exact iff_of_true (indistinguishable_of_view scope seen) (.inr (.inl ⟨rest, rfl⟩))
    | succ count =>
      constructor
      · intro same
        -- Were the first write not a repetition, some memory would read differently.
        by_contra noticed
        have changes : ¬(count = 0 ∧ op.FirstWriteRepeats (viewOf scope before.storage).record) := by
          rintro ⟨rfl, repeats⟩
          exact noticed (.inr (.inr ⟨⟨rest, rfl⟩, repeats⟩))
        obtain ⟨id, differs⟩ := record_changed_of_partial keyed accepted below changes
        rw [← seen] at differs
        exact differs (record_eq_of_indistinguishable scope same id)
      · rintro (⟨refusal, refused⟩ | ⟨_, first⟩ | ⟨⟨_, second⟩, repeats⟩)
        · exact absurd refused (allowed refusal)
        · cases first
        · cases count with
          | zero =>
            rw [first_write_of_repeats keyed accepted repeats] at seen
            exact indistinguishable_of_view scope seen
          | succ count => cases second

/-- A creation that fails while writing its audit trail leaves a memory that can be read. -/
theorem failed_create_noticed : ¬Indistinguishable {} ({} : MemoryStorage) (exec
      (MemoryOp.run {} (.create (convention "a" "Use tabs"))) { faults := [false, true] }).2.storage := by
  intro same
  have read := same.get "a"
  cases read

/-- A failing edit to the same content goes unnoticed. -/
theorem failed_edit_unnoticed : Indistinguishable {} (runOps {} [.create (convention "a" "Use tabs")]
        { faults := [false, false, false, false, true] }).storage
      (exec (MemoryOp.run {} (.edit "a" { actor := "dev", content := "Use tabs" }))
        (runOps {} [.create (convention "a" "Use tabs")]
          { faults := [false, false, false, false, true] })).2.storage :=
  (failed_call_unnoticed_iff {} [.create (convention "a" "Use tabs")]
    [false, false, false, false, true] (.edit "a" { actor := "dev", content := "Use tabs" }) rfl).2
    (.inr (.inr ⟨⟨[], rfl⟩, _, rfl, rfl⟩))

/-- What was stored, logged or indexed is still there, with new entries behind it. -/
structure MemoryView.Extends (earlier later : MemoryView) : Prop where
  record : ∀ id, (earlier.record id).isSome → (later.record id).isSome
  audit : ∀ id, earlier.audit id <+: later.audit id
  index : earlier.index <+: later.index

theorem MemoryView.Extends.write {earlier : MemoryView} (extended : earlier.Extends view) (write : MemoryWrite) :
    earlier.Extends (write.apply view) := by
  obtain ⟨record, audit, index⟩ := extended
  -- A write adds a record, an event or an entry, and leaves the rest alone.
  cases write <;> constructor <;> simp only [MemoryWrite.apply, Function.update_apply] <;> grind

/-- No calls, under any faults, lose a memory, an audit event, or an entry of the index. -/
theorem nothing_lost (ops : List MemoryOp) (backend : Backend) :
    (viewOf scope backend.storage).Extends (viewOf scope (runOps scope ops backend).storage) := by
  refine Run.invariant _ (fun reached : Backend => MemoryView.Extends _ (viewOf scope reached.storage))
    (fun reached op extended => ?_) ⟨by simp, by simp, by simp⟩ ops
  simp only [MemoryOp.after, exec_run]
  cases op.plan (viewOf scope reached.storage) with
  | error error => exact extended
  | ok result =>
    obtain ⟨writes, record⟩ := result
    -- The planned writes before the first failure are performed.
    induction writes generalizing reached with
    | nil => exact extended
    | cons write writes ih =>
      have next := extended.write write
      rw [← viewOf_perform] at next
      rcases reached with ⟨_, _ | ⟨_ | _, _⟩⟩
      · exact ih _ next
      · exact ih _ next
      · exact extended

end Codel00p
