import Codel00p.Memory.Uniqueness

/-! The revisions of a memory, read off its audit trail. -/

namespace Codel00p

open MemoryAuditEvent (revisedContent)
open MemoryWrite (apply audit)

@[simp] theorem MemoryAuditEvent.revisedContent_numbered (event : MemoryAuditEvent) (sequence : Nat) :
    ({ event with sequence } : MemoryAuditEvent).revisedContent = event.revisedContent := rfl

variable {events : List MemoryAuditEvent} {event : MemoryAuditEvent}

theorem revisionsFrom_contents (revisionNumber : Nat) (events : List MemoryAuditEvent) :
    (revisionsFrom revisionNumber events).map MemoryRevision.content = events.filterMap revisedContent := by
  induction events generalizing revisionNumber with
  | nil => rfl
  | cons event events ih =>
    cases brought : event.revisedContent <;> simp [revisionsFrom, brought, ih]

theorem revisionsFrom_numbers (revisionNumber : Nat) (events : List MemoryAuditEvent) :
    (revisionsFrom revisionNumber events).map MemoryRevision.revision =
      List.range' (revisionNumber + 1) (revisionsFrom revisionNumber events).length := by
  induction events generalizing revisionNumber with
  | nil => rfl
  | cons event events ih =>
    cases brought : event.revisedContent <;> simp [revisionsFrom, brought, ih, List.range'_succ]

theorem revisionsFrom_append (revisionNumber : Nat) (first second : List MemoryAuditEvent) :
    revisionsFrom revisionNumber (first ++ second) = revisionsFrom revisionNumber first ++
      revisionsFrom (revisionNumber + (revisionsFrom revisionNumber first).length) second := by
  induction first generalizing revisionNumber with
  | nil => rfl
  | cons event events ih =>
    cases brought : event.revisedContent <;>
      simp [revisionsFrom, brought, ih, Nat.add_comm, Nat.add_assoc]

def lastContent (events : List MemoryAuditEvent) : Option String := (events.filterMap revisedContent).getLast?

theorem revisionsFrom_last (revisionNumber : Nat) (events : List MemoryAuditEvent) :
    (revisionsFrom revisionNumber events).getLast?.map MemoryRevision.content = lastContent events := by
  rw [lastContent, ← revisionsFrom_contents revisionNumber, List.getLast?_map]

theorem lastContent_snoc (events : List MemoryAuditEvent) (event : MemoryAuditEvent) :
    lastContent (events ++ [event]) = event.revisedContent.or (lastContent events) := by
  cases brought : event.revisedContent <;> simp [lastContent, List.filterMap_append, brought]

inductive Trail : List MemoryAuditEvent → Option String → Prop
  | empty : Trail [] none
  | extend {events : List MemoryAuditEvent} {event : MemoryAuditEvent} {old content : Option String}
      (before : Trail events old) (told : content = event.revisedContent.or old)
      (replaced : event.action = .edited → event.revisedContent.isSome ∧
        ∃ previous, old = some previous ∧ event.previousContent = some previous) :
      Trail (events ++ [event]) content

namespace Trail

variable {content : Option String}

theorem lastContent_eq (trail : Trail events content) : lastContent events = content := by
  induction trail with
  | empty => rfl
  | extend _ told _ ih => rw [lastContent_snoc, ih, told]

theorem previous (trail : Trail events content) {before after : List MemoryAuditEvent}
    (split : events = before ++ event :: after) (edit : event.action = .edited) : event.revisedContent.isSome ∧
      ∃ previous, lastContent before = some previous ∧ event.previousContent = some previous := by
  induction trail generalizing after with
  | empty => simp at split
  | extend older told replaced ih =>
    -- The edit is the event the trail was just extended by, or an older one.
    rcases List.eq_nil_or_concat after with rfl | ⟨rest, final, rfl⟩
    · obtain ⟨rfl, last⟩ := List.append_inj' split rfl
      obtain rfl : _ = event := by simpa using last
      rw [older.lastContent_eq]
      exact replaced edit
    · rw [List.concat_eq_append, ← List.cons_append, ← List.append_assoc] at split
      exact ih (List.append_inj' split rfl).1

end Trail

def Told (view : MemoryView) : Prop :=
  ∀ id, Trail (view.audit id) ((view.record id).map fun record => record.entry.content)

namespace Told

variable {view : MemoryView} {record : MemoryRecord}

theorem empty : Told MemoryView.empty := fun _ => .empty

section

variable (told : Told view)

include told

theorem touch (record current : MemoryRecord) (found : view.record record.entry.id = some current)
    (same : record.entry.content = current.entry.content) : Told ((MemoryWrite.put record).apply view) := by
  intro id
  have before := told id
  by_cases own : id = record.entry.id
  · subst own
    simpa [apply, found, same] using before
  · simpa [apply, Function.update_of_ne own] using before

theorem note (silent : event.revisedContent = none)
    (other : event.action ≠ .edited) : Told ((audit event).apply view) := by
  intro id
  by_cases own : id = event.memoryId
  · subst own
    simp only [apply, Function.update_self]
    exact (told event.memoryId).extend (by simp [silent]) (fun edit => absurd edit other)
  · simpa [apply, Function.update_of_ne own] using told id

theorem extend {content : Option String} (about : event.memoryId = record.entry.id)
    (old : (view.record record.entry.id).map (fun record => record.entry.content) = content)
    (brought : some record.entry.content = event.revisedContent.or content)
    (replaced : event.action = .edited → event.revisedContent.isSome ∧
      ∃ previous, content = some previous ∧ event.previousContent = some previous) :
    Told (applyAll [.put record, .audit event] view) := by
  intro id
  by_cases own : id = event.memoryId
  · subst own
    simp only [applyAll, List.foldl_cons, List.foldl_nil, apply, ← about, Function.update_self]
    rw [← about] at old
    exact (told event.memoryId).extend (by rw [old]; exact brought) (by rw [old]; exact replaced)
  · simpa [applyAll, apply, ← about, Function.update_of_ne own] using told id

/-- An accepted call keeps every trail in step with the stored content. -/
theorem accepted (formed : WellFormed view) {op : MemoryOp}
    {writes : List MemoryWrite} (accepted : Accepted view op writes record) : Told (applyAll writes view) := by
  refine accepted.induction formed.keyed told ?_ ?_ ?_ fun told _ silent other => note told silent other
  · intro view record told fresh _
    exact extend told rfl (by rw [fresh, Option.map_none]) rfl (by rintro ⟨⟩)
  · intro view record current event told found about _ brought replaced
    exact extend told about (by rw [found, Option.map_some]) brought fun edit => ⟨(replaced edit).1, _, rfl, (replaced edit).2⟩
  · intro view record current told found _ same
    exact touch told record current found same

end

end Told

theorem told_run (scope : StorageScope) (ops : List MemoryOp) :
    Told (viewOf scope (runOps scope ops {}).storage) := by
  rw [viewOf_runOps]
  refine (Run.invariant _ (fun view => WellFormed view ∧ Told view) ?_ ⟨.empty, .empty⟩ ops).2
  rintro view op ⟨formed, told⟩
  refine ⟨formed.apply op, ?_⟩
  rcases apply_cases view op with refused | ⟨writes, record, accepted, effect⟩
  · rwa [refused]
  · rw [effect]
    exact told.accepted formed accepted

/--
The revisions of a memory on a working backend.

After any calls, a stored memory has revisions numbered from one, the last of which is its content.
Every edit in its audit trail recorded as the previous content
the content of the last revision before it.
-/
theorem revisions_history (scope : StorageScope) (ops : List MemoryOp) (id : String) (record : MemoryRecord)
    (stored : MemoryStore.get scope id (runOps scope ops {}).storage = .ok record) :
    ∃ revisions, MemoryStore.revisions scope id (runOps scope ops {}).storage = .ok revisions ∧ revisions ≠ [] ∧
      revisions.map MemoryRevision.revision = List.range' 1 revisions.length ∧
      revisions.getLast?.map MemoryRevision.content = some record.entry.content ∧ ∀ before event after,
        MemoryStore.auditLog scope id (runOps scope ops {}).storage = before ++ event :: after →
        event.action = .edited → ∃ older preceding own newer, revisions = older ++ preceding :: own :: newer ∧
            own.sequence = event.sequence ∧ event.newContent = some own.content ∧
            event.previousContent = some preceding.content := by
  rw [get_eq_ok_iff] at stored
  have trail : Trail (MemoryStore.auditLog scope id (runOps scope ops {}).storage) _ := told_run scope ops id
  rw [stored] at trail
  have last := (revisionsFrom_last 0 _).trans trail.lastContent_eq
  refine ⟨_, by rw [MemoryStore.revisions, (get_eq_ok_iff ..).2 stored]; rfl, ?_,
    revisionsFrom_numbers 0 _, last, ?_⟩
  · intro none
    simp [none] at last
  · intro before event after split edit
    obtain ⟨brings, previous, told, recorded⟩ := trail.previous split edit
    -- The revisions before the edit end in the content it replaced, and it brings the next one.
    rw [← revisionsFrom_last 0, Option.map_eq_some_iff] at told
    obtain ⟨preceding, ends, rfl⟩ := told
    obtain ⟨content, brought⟩ := Option.isSome_iff_exists.1 brings
    obtain ⟨older, shape⟩ := List.getLast?_eq_some_iff.1 ends
    rw [split, revisionsFrom_append, shape]
    simp only [revisionsFrom, brought, List.append_assoc, List.singleton_append]
    refine ⟨older, preceding, _, _, rfl, rfl, ?_, recorded⟩
    simpa [revisedContent, edit] using brought

/-- A memory that is created and then edited ends in the edit's content. -/
theorem revisions_history_edited :
    ∃ revisions, MemoryStore.revisions {} "a" (runOps {} [.create (convention "a" "Use tabs"),
      .edit "a" { actor := "ada", content := "Use spaces" }] {}).storage = .ok revisions ∧
      revisions.getLast?.map MemoryRevision.content = some "Use spaces" := by
  obtain ⟨revisions, read, _, _, last, _⟩ := revisions_history {}
    [.create (convention "a" "Use tabs"), .edit "a" { actor := "ada", content := "Use spaces" }] "a"
    { entry := (convention "a" "Use spaces").intoEntry } (by decide +kernel)
  exact ⟨revisions, read, last⟩

end Codel00p
