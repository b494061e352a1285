import Codel00p.Cloud.ScopedBackend
import Codel00p.Cloud.Records

/-! Which creations of the cloud service get a fresh id: the counters start over with the process, the store does not. -/

namespace Codel00p.Cloud

open Program (exec exec_bind exec_throw exec_pure exec_within exec_perform)

variable {σ : Type}

def documentKey (document : StorageDocument Json) : DocumentKey := ⟨document.scope, document.collection, document.id⟩

/-- A backend that keeps documents under their keys: a write replaces what is under its key, and nothing else. -/
structure DurableBackend (σ : Type) extends StorageBackend σ where
  Record : Type
  /-- What is stored under a key. -/
  find : σ → DocumentKey → Option Record
  put_ok : ∀ document store, ∃ stored, (putDocument document store).1 = .ok stored
  /-- What is written is there, and can be told from what was there before. -/
  find_put : ∀ document store, ∃ record,
    find (putDocument document store).2 (documentKey document) = some record ∧
      find store (documentKey document) ≠ some record
  find_put_other : ∀ document store key, key ≠ documentKey document →
    find (putDocument document store).2 key = find store key
  find_append : ∀ scope stream payload store key,
    find (appendLogEntry scope stream payload store).2 key = find store key

/-- The in-memory backend keeps documents under their keys. -/
def inMemoryDurable : DurableBackend (InMemoryStorage Json Json) where
  toStorageBackend := inMemoryBackend
  Record := StorageDocument Json
  find storage key := storage.documents.lookup key
  put_ok document storage := ⟨_, rfl⟩
  find_put document storage := by
    refine ⟨storage.storedDocument document, AList.lookup_insert _, fun same => ?_⟩
    -- The version that was there is one less.
    have versions := congrArg (Option.map StorageDocument.version) same
    simp only [documentKey, InMemoryStorage.storedDocument] at versions
    cases found : storage.documents.lookup ⟨document.scope, document.collection, document.id⟩ with
    | none | some => simp [found] at versions
  find_put_other document storage key other := AList.lookup_insert_ne other
  find_append scope stream payload storage key := rfl

/-- The SQLite backend keeps documents under their keys. -/
def sqliteDurable (codec : JsonCodec) : DurableBackend SqliteStorage where
  toStorageBackend := sqliteBackend codec
  Record := DocumentRow
  find tables key := tables.documents.find (scopeKey key.scope, key.collection, key.id)
  put_ok document tables := ⟨_, rfl⟩
  find_put document tables := by
    refine ⟨documentRow codec { document with version := SqliteStorage.nextVersion (tables.documentVersion
      (scopeKey document.scope) document.collection document.id) }, ?_, fun same => ?_⟩
    · simp only [sqliteBackend, SqliteStorage.putDocument, Table.find_upsert]
      exact if_pos rfl
    · -- The version that was there is one less.
      have versions := congrArg (Option.map DocumentRow.version) same
      simp only [documentKey, documentRow, SqliteStorage.documentVersion] at versions
      cases found : tables.documents.find (scopeKey document.scope, document.collection, document.id) with
      | none => simp [found] at versions
      | some existing => simp [found, SqliteStorage.nextVersion] at versions
  find_put_other document tables key other := by
    simp only [sqliteBackend, SqliteStorage.putDocument, Table.find_upsert]
    refine if_neg fun same => other ?_
    obtain ⟨scopes, rest⟩ := Prod.mk.inj same
    obtain ⟨collections, ids⟩ := Prod.mk.inj rest
    exact DocumentKey.mk.injEq .. |>.mpr ⟨scopeKey_injective scopes, collections, ids⟩
  find_append scope stream payload tables key := by
    simp only [sqliteBackend, SqliteStorage.appendLogEntry, SqliteStorage.appended, SqliteStorage.insertLogRow]
    cases tables.logs.insert _ <;> rfl

/-! ### Creations -/

inductive Creation where
  | project (orgId : String) (request : NewProject)
  | memory (orgId : String) (into : Project) (request : NewMemoryCandidate) (actor : String)
  | agent (orgId projectId : String) (request : NewAgent) (actor : String)

namespace Creation

def kind : Creation → RecordKind
  | .project .. => .project
  | .memory .. => .memory
  | .agent .. => .agent

def scope : Creation → StorageScope
  | .project orgId _ => organizationScope orgId
  | .memory orgId into _ _ => projectScope orgId into.id
  | .agent orgId projectId _ _ => projectScope orgId projectId

/-- Whether nothing that is required is missing. -/
def complete : Creation → Bool
  | .project _ request => !(trim request.name).isEmpty
  | .memory _ _ request _ => !(trim request.content).isEmpty
  | .agent _ _ request _ =>
    !(trim request.name).isEmpty && !((trim request.provider).isEmpty || (trim request.model).isEmpty)

def run (codec : CloudCodec) (backend : StorageBackend σ) : Creation → CloudM σ String
  | .project orgId request => (·.id) <$> createProject codec backend orgId request
  | .memory orgId into request actor => (·.id) <$> pushCandidate codec backend orgId into request actor
  | .agent orgId projectId request actor => (·.id) <$> createAgent codec backend orgId projectId request actor

end Creation

/-- What happens to a service: a record is to be created, or the process starts over. -/
inductive ServiceEvent where
  | create (creation : Creation)
  | restart

/-- What an event leads to; the store outlives the process. -/
def serviceStep (codec : CloudCodec) (backend : StorageBackend σ) (state : CloudState σ) : ServiceEvent → CloudState σ
  | .create creation => (exec (creation.run codec backend) state).2
  | .restart => { store := state.store }

structure Fresh (codec : CloudCodec) (backend : DurableBackend σ) (state : CloudState σ) (creation : Creation) :
    Prop where
  unused : ∀ id, (exec (creation.run codec backend.toStorageBackend) state).1 = .ok id →
    backend.find state.store ⟨creation.scope, creation.kind.collection, id⟩ = none
  kept : ∀ key record, backend.find state.store key = some record →
    backend.find (exec (creation.run codec backend.toStorageBackend) state).2.store key = some record

structure Place where
  kind : RecordKind
  scope : StorageScope
  number : UInt64
  deriving DecidableEq

def Place.key (place : Place) : DocumentKey := ⟨place.scope, place.kind.collection, recordId place.kind place.number⟩

def places : Counters → List ServiceEvent → List Place
  | _, [] => []
  | _, .restart :: rest => places {} rest
  | tally, .create creation :: rest =>
    if creation.complete then
      ⟨creation.kind, creation.scope, tally.at creation.kind⟩ :: places (tally.advance creation.kind) rest
    else places tally rest

theorem Place.key_injective : Function.Injective Place.key := by
  intro first second same
  obtain ⟨kind, scope, number⟩ := first
  obtain ⟨kind', scope', number'⟩ := second
  simp only [Place.key, DocumentKey.mk.injEq] at same
  obtain ⟨rfl, collections, ids⟩ := same
  -- The collection tells the kind, and what follows the label of the kind the number.
  obtain rfl : kind = kind' := by cases kind <;> cases kind' <;> first | rfl | exact absurd collections (by decide)
  have numbers : toString number.toNat = toString number'.toNat := by
    simpa [recordId] using ids
  rw [UInt64.toNat_inj.1 (natToString_injective numbers)]

section

variable {codec : CloudCodec} {backend : DurableBackend σ}

theorem exec_storeRecord {α : Type} (payloads : PayloadCodec α) (kind : RecordKind) (scope : StorageScope) (id : String)
    (record : α) (metadata : List (String × String)) (state : CloudState σ) :
    exec (storeRecord codec backend.toStorageBackend payloads kind scope id record metadata) state =
      (.ok (), { state with store := (backend.putDocument
        { scope, collection := kind.collection, id, payload := payloads.toValue record, metadata } state.store).2 }) := by
  obtain ⟨stored, answered⟩ := backend.put_ok
    { scope, collection := kind.collection, id, payload := payloads.toValue record, metadata } state.store
  simp [storeRecord, writeStore, exec_bind, exec_within, answered, storageResult, exec_pure]

theorem exec_recordAudit (scope : StorageScope) (memoryId : String) (action : MemoryReviewAction) (actor : String)
    (state : CloudState σ) : (exec (recordAudit codec backend.toStorageBackend scope memoryId action actor) state).2 =
      { state with store := (backend.appendLogEntry scope (auditStream memoryId)
        (codec.audit.toValue { memoryId, action, actor }) state.store).2 } := by
  simp only [recordAudit, writeStore, exec_bind, exec_within]
  cases (backend.appendLogEntry scope (auditStream memoryId) (codec.audit.toValue { memoryId, action, actor })
    state.store).1 <;> rfl

theorem exec_map_snd {α β : Type} (convert : α → β) (program : CloudM σ α) (state : CloudState σ) :
    exec (convert <$> program) state = ((exec program state).1.map convert, (exec program state).2) := by
  rw [map_eq_pure_bind, exec_bind]
  generalize exec program state = outcome
  rcases outcome with ⟨_ | value, reached⟩ <;> rfl

theorem Creation.exec_incomplete {creation : Creation} (incomplete : creation.complete = false)
    (state : CloudState σ) :
    ∃ error, exec (creation.run codec backend.toStorageBackend) state = (.error error, state) := by
  cases creation with
  | project orgId request =>
    simp only [complete, Bool.not_eq_false'] at incomplete
    exact ⟨_, by simp only [run, exec_map_snd, createProject, incomplete, if_true, exec_throw]; rfl⟩
  | memory orgId into request actor =>
    simp only [complete, Bool.not_eq_false'] at incomplete
    exact ⟨_, by simp only [run, exec_map_snd, pushCandidate, incomplete, if_true, exec_throw]; rfl⟩
  | agent orgId projectId request actor =>
    simp only [run, exec_map_snd, createAgent]
    cases name : (trim request.name).isEmpty with
    | true => exact ⟨_, by simp only [if_true, exec_throw]; rfl⟩
    | false =>
      simp only [complete, name, Bool.not_false, Bool.true_and, Bool.not_eq_false'] at incomplete
      exact ⟨_, by simp only [incomplete, Bool.false_eq_true, if_false, if_true, exec_throw]; rfl⟩

def Creation.place (creation : Creation) (counters : Counters) : Place :=
  ⟨creation.kind, creation.scope, counters.at creation.kind⟩

theorem withUrl_id (project : Project) (url : Option String) : (withUrl project url).id = project.id := by
  cases url <;> simp [withUrl, Project.withRepositoryUrl]

/-- A complete request writes one document, at the place that the counters give it, and counts on. -/
theorem Creation.exec_complete {creation : Creation} (complete : creation.complete = true) (state : CloudState σ) :
    ∃ document, documentKey document = (creation.place state.counters).key ∧
      (exec (creation.run codec backend.toStorageBackend) state).2.counters = state.counters.advance creation.kind ∧
      (∀ key, backend.find (exec (creation.run codec backend.toStorageBackend) state).2.store key =
        backend.find (backend.putDocument document state.store).2 key) ∧
      ∀ id, (exec (creation.run codec backend.toStorageBackend) state).1 = .ok id →
        id = recordId creation.kind (state.counters.at creation.kind) := by
  cases creation with
  | project orgId request =>
    simp only [Creation.complete, Bool.not_eq_true'] at complete
    simp only [run, exec_map_snd, createProject, complete, Bool.false_eq_true, if_false, exec_bind, nextId,
      exec_perform, storeProject, exec_storeRecord, exec_pure, withUrl_id]
    exact ⟨_, rfl, rfl, fun _ => rfl, fun id answered => (Except.ok.inj answered).symm.trans (withUrl_id _ _)⟩
  | memory orgId into request actor =>
    simp only [Creation.complete, Bool.not_eq_true'] at complete
    simp only [run, exec_map_snd, pushCandidate, complete, Bool.false_eq_true, if_false, exec_bind, nextId,
      exec_perform, exec_storeRecord]
    -- The log is appended to after the document was written, and may fail on its own.
    generalize logged : exec (recordAudit _ _ _ _ _ _) _ = outcome
    have appended := congrArg Prod.snd logged
    rw [exec_recordAudit] at appended
    obtain ⟨result, reached⟩ := outcome
    obtain rfl := appended
    refine ⟨?document, ?written, ?counted, fun key => ?finds, fun id answered => ?ids⟩
    case finds => cases result <;> exact backend.find_append _ _ _ _ _
    case written => rfl
    case counted =>
      cases result with
      | error error => rfl
      | ok done => rfl
    case ids =>
      cases result with
      | error error => exact nomatch answered
      | ok done =>
        exact (Except.ok.inj answered).symm.trans (congrArg MemoryEntry.id (MemoryEntry.foldl_withTag _ _))
  | agent orgId projectId request actor =>
    simp only [Creation.complete, Bool.and_eq_true, Bool.not_eq_true'] at complete
    simp only [run, exec_map_snd, createAgent, complete.1, complete.2, Bool.false_eq_true, if_false,
      exec_bind, nextId, exec_perform, storeAgent, exec_storeRecord, exec_pure]
    exact ⟨_, rfl, rfl, fun _ => rfl, fun id answered => (Except.ok.inj answered).symm⟩

theorem Creation.find_complete {creation : Creation} (complete : creation.complete = true) (state : CloudState σ)
    (place : Place) :
    backend.find (exec (creation.run codec backend.toStorageBackend) state).2.store place.key = none ↔
      place ≠ creation.place state.counters ∧ backend.find state.store place.key = none := by
  obtain ⟨document, written, _, finds, _⟩ := @exec_complete σ codec backend creation complete state
  rw [finds]
  by_cases same : place = creation.place state.counters
  · obtain ⟨record, found, _⟩ := backend.find_put document state.store
    subst same
    rw [written] at found
    simp [found]
  · have other : place.key ≠ documentKey document := fun keys => same (Place.key_injective (keys.trans written))
    rw [backend.find_put_other document state.store _ other]
    simp [same]

/-- A request is fresh just when it is incomplete, or its place is free. -/
theorem fresh_iff (creation : Creation) (state : CloudState σ) : Fresh codec backend state creation ↔
      (creation.complete = true → backend.find state.store (creation.place state.counters).key = none) := by
  cases complete : creation.complete with
  | false =>
    obtain ⟨error, ran⟩ := @Creation.exec_incomplete σ codec backend creation complete state
    refine ⟨fun _ wrong => (nomatch wrong), fun _ => ⟨fun id answered => ?_, fun key record found => ?_⟩⟩
    · rw [ran] at answered
      exact nomatch answered
    · rw [ran]
      exact found
  | true =>
    obtain ⟨document, written, _, finds, ids⟩ := @Creation.exec_complete σ codec backend creation complete state
    constructor
    · -- A record under the key would have been replaced by one that can be told from it.
      intro fresh _
      cases found : backend.find state.store (creation.place state.counters).key with
      | none => rfl
      | some record =>
        obtain ⟨replacement, there, differs⟩ := backend.find_put document state.store
        have kept := fresh.kept _ _ found
        rw [finds, ← written, there] at kept
        rw [written, found] at differs
        exact absurd kept.symm differs
    · intro free
      refine ⟨fun id answered => ?_, fun key record found => ?_⟩
      · rw [ids id answered]
        exact free rfl
      · rw [finds, backend.find_put_other document state.store key fun same => ?_]
        · exact found
        · rw [same, written, free rfl] at found
          exact nomatch found

end

/--
The creations of a history are fresh just when their places are all different, and free at the start.

The places are counted anew after every restart, while the store goes on.
-/
theorem creations_fresh_iff (codec : CloudCodec) (backend : DurableBackend σ) (history : List ServiceEvent)
    (start : CloudState σ) : (∀ state creation, (state, ServiceEvent.create creation) ∈
        Run.steps (serviceStep codec backend.toStorageBackend) history start → Fresh codec backend state creation) ↔
      (places start.counters history).Nodup ∧
        ∀ place ∈ places start.counters history, backend.find start.store place.key = none := by
  induction history generalizing start with
  | nil => simp [Run.steps, places]
  | cons event history ih =>
    have rest := ih (serviceStep codec backend.toStorageBackend start event)
    cases event with
    | restart =>
      -- The counters start over, and what is stored stays.
      rw [show places start.counters (.restart :: history) = places {} history from rfl]
      simpa [Run.steps, serviceStep] using rest
    | create creation =>
      have split : (∀ state made, (state, ServiceEvent.create made) ∈
          Run.steps (serviceStep codec backend.toStorageBackend) (.create creation :: history) start →
            Fresh codec backend state made) ↔
          Fresh codec backend start creation ∧ ∀ state made, (state, ServiceEvent.create made) ∈
            Run.steps (serviceStep codec backend.toStorageBackend) history
              (serviceStep codec backend.toStorageBackend start (.create creation)) →
                Fresh codec backend state made := by
        simp only [Run.steps, List.mem_cons, Prod.mk.injEq, ServiceEvent.create.injEq]
        grind
      rw [split, rest, fresh_iff]
      cases complete : creation.complete with
      | false =>
        obtain ⟨error, ran⟩ := @Creation.exec_incomplete σ codec backend creation complete start
        simp [places, complete, serviceStep, ran]
      | true =>
        obtain ⟨_, _, counted, _⟩ := @Creation.exec_complete σ codec backend creation complete start
        -- The places that come later have to be free after this one was taken.
        simp only [places, complete, if_true, serviceStep, counted, Creation.find_complete complete,
          List.nodup_cons, List.forall_mem_cons, true_implies]
        rw [show (⟨creation.kind, creation.scope, start.counters.at creation.kind⟩ : Place) =
          creation.place start.counters from rfl]
        grind

def newProject (name : String) : Creation := .project "acme" { name }

def restarted : CloudState (InMemoryStorage Json Json) :=
  [.create (newProject "Site"), .restart].foldl (serviceStep projectsOnly inMemoryDurable.toStorageBackend)
    { store := {} }

/-- The first project after a restart gets the id of the first one before, and replaces it. -/
theorem restart_replaces_project :
    (exec ((newProject "Plans").run projectsOnly inMemoryDurable.toStorageBackend) restarted).1 = .ok "proj_1" ∧
      (inMemoryDurable.find restarted.store ⟨organizationScope "acme", "projects", "proj_1"⟩).isSome ∧
      ¬Fresh projectsOnly inMemoryDurable restarted (newProject "Plans") := by
  have there : (inMemoryDurable.find restarted.store ⟨organizationScope "acme", "projects", "proj_1"⟩).isSome := by
    decide +kernel
  have answered : (exec ((newProject "Plans").run projectsOnly inMemoryDurable.toStorageBackend)
      restarted).1 = .ok "proj_1" := by decide +kernel
  refine ⟨answered, there, fun fresh => ?_⟩
  have free : inMemoryDurable.find restarted.store ⟨organizationScope "acme", "projects", "proj_1"⟩ = none :=
    fresh.unused "proj_1" answered
  simp [free] at there

end Codel00p.Cloud
