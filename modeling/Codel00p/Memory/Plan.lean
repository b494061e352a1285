import Codel00p.Memory.View

/-! Every repository call reads first and then performs a fixed list of writes in order. -/

namespace Codel00p

open Program (exec exec_bind)

namespace MemoryM

variable {α : Type}

theorem exec_read (reader : MemoryStorage → Except MemoryError α) (backend : Backend) :
    exec (read reader) backend = (reader backend.storage, backend) := by
  have asked : exec (getThe Backend : MemoryM Backend) backend = (.ok backend, backend) := rfl
  simp only [read, exec_bind, asked]
  cases reader backend.storage <;> rfl

theorem exec_write (change : MemoryStorage → MemoryStorage) (backend : Backend) :
    exec (write change) backend =
      match backend.faults with
      | true :: faults => (.error (.storage "backend failure"), { backend with faults })
      | faults => (.ok (), { storage := change backend.storage, faults := faults.tail }) := by
  -- The three shapes of the fault list pick the branch.
  rcases backend with ⟨storage, _ | ⟨_ | _, faults⟩⟩ <;> rfl

end MemoryM

namespace MemoryView

def get (view : MemoryView) (id : String) : Except MemoryError MemoryRecord :=
  match view.record id with
  | some record => .ok record
  | none => .error (.memoryNotFound id)

def indexedFrom (view : MemoryView) :
    List MemoryAuditEvent → Except MemoryError (List IndexedMemoryRecord)
  | [] => .ok []
  | audit :: audits =>
    if audit.action = .candidateCreated then do
      let record ← view.get audit.memoryId
      let rest ← view.indexedFrom audits
      return { record, sequence := audit.sequence } :: rest
    else view.indexedFrom audits

def records (view : MemoryView) : Except MemoryError (List MemoryRecord) := do
  return (← view.indexedFrom view.index).map IndexedMemoryRecord.record

def taken (view : MemoryView) (id : String) : Except MemoryError Bool := .ok (view.record id).isSome

def activeDuplicateId (view : MemoryView) (entry : MemoryEntry) :
    Except MemoryError (Option String) := do
  let records ← view.records
  return (records.find? fun record => MemoryStore.sameMemory record.entry entry).map (·.entry.id)

end MemoryView

variable (scope : StorageScope)

theorem get_eq_view (id : String) (storage : MemoryStorage) :
    MemoryStore.get scope id storage = (viewOf scope storage).get id := by
  cases found : storage.getDocument scope memoryCollection id <;>
    simp [MemoryStore.get, MemoryView.get, viewOf, found]

theorem taken_eq_view (id : String) (storage : MemoryStorage) :
    MemoryStore.taken scope id storage = (viewOf scope storage).taken id := by
  simp [MemoryStore.taken, MemoryView.taken, viewOf]

theorem indexedRecordsFrom_eq_view (storage : MemoryStorage) (events : List MemoryAuditEvent) :
    MemoryStore.indexedRecordsFrom scope storage events = (viewOf scope storage).indexedFrom events := by
  induction events with
  | nil => rfl
  | cons event events ih =>
    simp [MemoryStore.indexedRecordsFrom, MemoryView.indexedFrom, get_eq_view, ih]

theorem records_eq_view (storage : MemoryStorage) :
    MemoryStore.records scope storage = (viewOf scope storage).records := by
  simp only [MemoryStore.records, MemoryStore.indexedRecords, indexedRecordsFrom_eq_view]
  rfl

theorem activeDuplicateId_eq_view (entry : MemoryEntry) (storage : MemoryStorage) :
    MemoryStore.activeDuplicateId scope entry storage = (viewOf scope storage).activeDuplicateId entry := by
  simp [MemoryStore.activeDuplicateId, MemoryView.activeDuplicateId, records_eq_view]

/-- The source's own writes of a split that rewrites what stays. -/
def splitUpdate (source : MemoryEntry) (sourceId : String) (split : MemorySplit) : List MemoryWrite :=
  match split.updatedSourceContent with
  | some updatedContent =>
    [.put { entry := replaceContent source updatedContent },
     .audit (.edited sourceId { actor := split.actor, content := updatedContent } source.content updatedContent)]
  | none => []

/-- What a call decides to write, or the error it stops with, from what it can see. -/
def MemoryOp.plan (view : MemoryView) :
    MemoryOp → Except MemoryError (List MemoryWrite × MemoryRecord)
  | .create input => do
    input.validate
    if ← view.taken input.id then throw (.memoryAlreadyExists input.id)
    let entry := input.intoEntry
    match ← view.activeDuplicateId entry with
    | some existingId => throw (.duplicateMemory entry.id existingId)
    | none =>
      return ([.put { entry }, .audit (.created entry.id entry.content),
        .index (.created entry.id entry.content)], { entry })
  | .review id decision => do
    let current ← view.get id
    ensureTransition current.entry.status decision.nextStatus
    let record : MemoryRecord := { entry := current.entry.withStatus decision.nextStatus }
    return ([.put record, .audit (.reviewed id decision)], record)
  | .edit id change => do
    change.validate
    let current ← view.get id
    let record : MemoryRecord := { entry := replaceContent current.entry change.content }
    return ([.put record, .audit (.edited id change current.entry.content change.content)], record)
  | .addEvidence id evidence actor reason => do
    let current ← view.get id
    if !isActiveMemoryStatus current.entry.status then
      throw (.invalidEdit "cannot add evidence to a memory that is not active")
    let record : MemoryRecord := { entry := appendEvidence current.entry evidence }
    return ([.put record, .audit (.evidenceAdded id actor evidence.reference reason)], record)
  | .merge sourceId targetId request => do
    if sourceId = targetId then throw (.invalidMerge "cannot merge a memory into itself")
    let source ← view.get sourceId
    let target ← view.get targetId
    if source.entry.project.id ≠ target.entry.project.id then
      throw (.invalidMerge "memories belong to different projects")
    if !isActiveMemoryStatus source.entry.status then
      throw (.invalidMerge "source memory is not active")
    if !isActiveMemoryStatus target.entry.status then
      throw (.invalidMerge "target memory is not active")
    let record : MemoryRecord := { entry := unionTags target.entry source.entry.tags }
    return ([.put record, .put { entry := source.entry.withStatus .archived },
      .audit (.merged sourceId request targetId), .audit (.mergedFrom targetId request sourceId)],
      record)
  | .split sourceId request => do
    let source ← view.get sourceId
    if !isActiveMemoryStatus source.entry.status then
      throw (.invalidSplit "source memory is not active")
    if ← view.taken request.newId then throw (.memoryAlreadyExists request.newId)
    let record : MemoryRecord := { entry := (MemoryStore.splitInput source.entry request).intoEntry }
    return ([.put record, .audit (.created request.newId record.entry.content),
      .index (.created request.newId record.entry.content)]
      ++ splitUpdate source.entry sourceId request
      ++ [.audit (.splitSource sourceId request), .audit (.splitFrom request.newId request sourceId)],
      record)

def performAll (record : MemoryRecord) :
    List MemoryWrite → Backend → Except MemoryError MemoryRecord × Backend
  | [], backend => (.ok record, backend)
  | write :: writes, backend =>
    match backend.faults with
    | true :: faults => (.error (.storage "backend failure"), { backend with faults })
    | faults =>
      performAll record writes { storage := write.perform scope backend.storage, faults := faults.tail }

def carryOut (plan : Except MemoryError (List MemoryWrite × MemoryRecord)) (backend : Backend) :
    Except MemoryError MemoryRecord × Backend :=
  match plan with
  | .ok (writes, record) => performAll scope record writes backend
  | .error error => (.error error, backend)

/-- An operation that does what a plan made from the view says. -/
def Plans (action : MemoryM MemoryRecord)
    (plan : MemoryView → Except MemoryError (List MemoryWrite × MemoryRecord)) : Prop :=
  ∀ backend, exec action backend = carryOut scope (plan (viewOf scope backend.storage)) backend

namespace Plans

variable {scope}

theorem read_bind {α : Type} {reader : MemoryStorage → Except MemoryError α}
    {seen : MemoryView → Except MemoryError α} {next : α → MemoryM MemoryRecord}
    {rest : MemoryView → α → Except MemoryError (List MemoryWrite × MemoryRecord)}
    (agree : ∀ storage, reader storage = seen (viewOf scope storage))
    (planned : ∀ value, Plans scope (next value) fun view => rest view value) :
    Plans scope (MemoryM.read reader >>= next) fun view => seen view >>= rest view := by
  intro backend
  rw [exec_bind, MemoryM.exec_read, agree]
  show _ = carryOut scope (seen (viewOf scope backend.storage) >>= _) backend
  cases seen (viewOf scope backend.storage) with
  | ok value => exact planned value backend
  | error error => rfl

theorem throw_bind {α : Type} (error : MemoryError) (next : α → MemoryM MemoryRecord) :
    Plans scope (throw error >>= next) fun _ => .error error :=
  fun _ => rfl

theorem ite {condition : Prop} [Decidable condition] {yes no : MemoryM MemoryRecord}
    {yesPlan noPlan : MemoryView → Except MemoryError (List MemoryWrite × MemoryRecord)}
    (positive : Plans scope yes yesPlan) (negative : Plans scope no noPlan) :
    Plans scope (if condition then yes else no)
      fun view => if condition then yesPlan view else noPlan view := by
  by_cases holds : condition <;> simpa [holds] using by assumption

theorem write_bind (write : MemoryWrite) {next : Unit → MemoryM MemoryRecord}
    {writes : List MemoryWrite} {record : MemoryRecord}
    (planned : Plans scope (next ()) fun _ => .ok (writes, record)) :
    Plans scope (MemoryM.write (write.perform scope) >>= next)
      fun _ => .ok (write :: writes, record) := by
  intro backend
  rw [exec_bind, MemoryM.exec_write]
  rcases backend with ⟨storage, _ | ⟨_ | _, faults⟩⟩
  · exact planned _
  · exact planned _
  · rfl

theorem done (record : MemoryRecord) : Plans scope (pure record) fun _ => .ok ([], record) := fun _ => rfl

end Plans

/-- Every call of the repository does what its plan says. -/
theorem plans_run (op : MemoryOp) : Plans scope (op.run scope) fun view => op.plan view := by
  -- The plan reads what the call reads, in the same order, so the rules apply line by line.
  cases op with
  | create input =>
    refine .read_bind (fun _ => rfl) fun _ => ?_
    refine .read_bind (taken_eq_view scope input.id) fun taken => ?_
    refine .ite (.throw_bind _ _) ?_
    refine .read_bind (activeDuplicateId_eq_view scope _) fun duplicate => ?_
    cases duplicate with
    | some existingId => exact .throw_bind _ _
    | none => exact .write_bind (.put _) (.write_bind (.audit _) (.write_bind (.index _) (.done _)))
  | review id decision =>
    refine .read_bind (get_eq_view scope id) fun current => ?_
    refine .read_bind (fun _ => rfl) fun _ => ?_
    exact .write_bind (.put _) (.write_bind (.audit _) (.done _))
  | edit id change =>
    refine .read_bind (fun _ => rfl) fun _ => ?_
    refine .read_bind (get_eq_view scope id) fun current => ?_
    exact .write_bind (.put _) (.write_bind (.audit _) (.done _))
  | addEvidence id evidence actor reason =>
    refine .read_bind (get_eq_view scope id) fun current => ?_
    refine .ite (.throw_bind _ _) ?_
    exact .write_bind (.put _) (.write_bind (.audit _) (.done _))
  | merge sourceId targetId request =>
    refine .ite (.throw_bind _ _) ?_
    refine .read_bind (get_eq_view scope sourceId) fun source => ?_
    refine .read_bind (get_eq_view scope targetId) fun target => ?_
    refine .ite (.throw_bind _ _) ?_
    refine .ite (.throw_bind _ _) ?_
    refine .ite (.throw_bind _ _) ?_
    exact .write_bind (.put _) (.write_bind (.put _) (.write_bind (.audit _) (.write_bind (.audit _) (.done _))))
  | split sourceId request =>
    refine .read_bind (get_eq_view scope sourceId) fun source => ?_
    refine .ite (.throw_bind _ _) ?_
    refine .read_bind (taken_eq_view scope request.newId) fun taken => ?_
    refine .ite (.throw_bind _ _) ?_
    -- Rewriting the source adds two writes in the middle.
    rcases request with ⟨actor, newId, newContent, _ | updated, reason⟩
    · exact .write_bind (.put _) (.write_bind (.audit _) (.write_bind (.index _)
        (.write_bind (.audit _) (.write_bind (.audit _) (.done _)))))
    · exact .write_bind (.put _) (.write_bind (.audit _) (.write_bind (.index _)
        (.write_bind (.put _) (.write_bind (.audit _) (.write_bind (.audit _) (.write_bind (.audit _) (.done _)))))))

theorem exec_run (op : MemoryOp) (backend : Backend) : exec (op.run scope) backend =
      carryOut scope (op.plan (viewOf scope backend.storage)) backend :=
  plans_run scope op backend

end Codel00p
