import Codel00p.Lib.Except
import Codel00p.Lib.Run
import Codel00p.Session.Store

/-! What replaying a session returns, after any operations on any sessions. -/

namespace Codel00p

open PersistedSessionRecord (fromLogEntry)

variable {ρ : Type}

theorem sessionRecordStream_injective : Function.Injective sessionRecordStream := by
  intro sessionId other same
  have stripped := congrArg (stripFront · "session/") same
  simp only [sessionRecordStream, stripFront_append, Option.some.injEq] at stripped
  exact stripped

namespace SessionStore

variable (store : SessionStore)

theorem find_empty (scope : StorageScope) (sessionId : String) :
    ({ scope } : SessionStore).find sessionId = none := by
  simp [find, InMemoryStorage.getDocument]

theorem find_put (metadata : SessionMetadata) (sessionId : String) : (store.put metadata).find sessionId =
      if sessionId = metadata.sessionId then some metadata else store.find sessionId := by
  simp [find, put]

theorem entries_put (metadata : SessionMetadata) (sessionId : String) :
    (store.put metadata).entries sessionId = store.entries sessionId := rfl

theorem find_deleteSession (target sessionId : String) : (store.deleteSession target).2.find sessionId =
      if sessionId = target then none else store.find sessionId := by
  simp only [find, deleteSession, Prod.map_snd, InMemoryStorage.getDocument_deleteDocument, true_and]
  split <;> rfl

def newEntry (values : RecordValues ρ) (sessionId : String) (record : ρ) : AppendLogEntry Json :=
  store.storage.appendedEntry store.scope (sessionRecordStream sessionId) (values.toValue record)

theorem fromLogEntry_newEntry (values : RecordValues ρ) (sessionId : String) (record : ρ) :
    fromLogEntry values (store.newEntry values sessionId record) =
      match values.fromValue (values.toValue record) with
      | some read => .ok
        { id := (store.newEntry values sessionId record).id, sessionId,
          sequence := (store.newEntry values sessionId record).sequence, record := read }
      | none => .error .serialization := by
  have own : sessionIdFromStream (store.newEntry values sessionId record).stream = .ok sessionId := by
    simp [newEntry, InMemoryStorage.appendedEntry, sessionIdFromStream, sessionRecordStream, stripFront_append]
  rw [fromLogEntry, own]
  rfl

variable {sessionId : String} {found : SessionMetadata}

theorem appendRecord_missing (missing : store.find sessionId = none) (values : RecordValues ρ) (record : ρ) :
    store.appendRecord values sessionId record = (.error (.sessionNotFound sessionId), store) := by
  simp [appendRecord, metadata, missing]

theorem appendRecord_fst (present : store.find sessionId = some found) (values : RecordValues ρ) (record : ρ) :
    (store.appendRecord values sessionId record).1 =
      fromLogEntry values (store.newEntry values sessionId record) := by
  simp only [appendRecord, metadata, present]
  rfl

theorem find_appendRecord (values : RecordValues ρ) (target : String) (record : ρ) (sessionId : String) :
    (store.appendRecord values target record).2.find sessionId = store.find sessionId := by
  rw [appendRecord]
  split <;> rfl

theorem entries_appendRecord {target : String}
    (present : store.find target = some found) (values : RecordValues ρ) (record : ρ) (sessionId : String) :
    (store.appendRecord values target record).2.entries sessionId =
      store.entries sessionId ++ if sessionId = target then [store.newEntry values target record] else [] := by
  simp only [appendRecord, metadata, present, entries]
  by_cases own : sessionId = target
  · rw [if_pos own, own, InMemoryStorage.replayLog_appendLogEntry_self]
    rfl
  · rw [if_neg own, List.append_nil]
    exact InMemoryStorage.replayLog_appendLogEntry_ne _ _ _ (sessionRecordStream_injective.ne own)

theorem replay_found (present : store.find sessionId = some found) (values : RecordValues ρ) :
    store.replay values sessionId = (store.entries sessionId).mapM (fromLogEntry values) := by
  simp only [replay, metadata, present]
  rfl

theorem replay_appendRecord
    (present : store.find sessionId = some found) (values : RecordValues ρ) (record : ρ) :
    (store.appendRecord values sessionId record).2.replay values sessionId = (do
      let records ← store.replay values sessionId
      let new ← fromLogEntry values (store.newEntry values sessionId record)
      return records ++ [new]) := by
  have after : (store.appendRecord values sessionId record).2.find sessionId = some found := by
    rw [find_appendRecord, present]
  rw [replay_found _ after, entries_appendRecord store present, if_pos rfl, List.mapM_append,
    ← replay_found store present]
  simp

end SessionStore

/-- An operation on a session store. -/
inductive SessionOp (ρ : Type) where
  | create (metadata : SessionMetadata)
  | setTitle (sessionId title : String)
  | setDescription (sessionId description : String)
  | delete (sessionId : String)
  | append (sessionId : String) (record : ρ)
  | replay (sessionId : String)

structure SessionRun (ρ : Type) where
  store : SessionStore
  appended : String → List (PersistedSessionRecord ρ) := fun _ => []

namespace SessionRun

variable (values : RecordValues ρ)

/-- Carry out an operation, and keep account of what was appended. -/
def step (run : SessionRun ρ) : SessionOp ρ → SessionRun ρ
  | .create metadata =>
    match run.store.createSession metadata with
    | (.ok _, store) => { store, appended := Function.update run.appended metadata.sessionId [] }
    | (.error _, store) => { run with store }
  | .setTitle sessionId title => { run with store := (run.store.setSessionTitle sessionId title).2 }
  | .setDescription sessionId description =>
    { run with store := (run.store.setSessionDescription sessionId description).2 }
  | .delete sessionId => { run with store := (run.store.deleteSession sessionId).2 }
  | .append sessionId record =>
    match run.store.appendRecord values sessionId record with
    | (.ok persisted, store) =>
      let records := run.appended sessionId ++ [{ persisted with record }]
      { store, appended := Function.update run.appended sessionId records }
    | (.error _, store) => { run with store }
  | .replay _ => run

/-- Every session that exists is replayed as what was appended to it since it was last created. -/
def Faithful (run : SessionRun ρ) : Prop :=
  ∀ sessionId found, run.store.find sessionId = some found →
    run.store.replay values sessionId = .ok (run.appended sessionId)

/-- A created session has an empty log, and an appended record is read back as itself. -/
def Clean (run : SessionRun ρ) : SessionOp ρ → Prop
  | .create metadata =>
    run.store.find metadata.sessionId = none → run.store.entries metadata.sessionId = []
  | .append sessionId record =>
    run.store.find sessionId ≠ none → values.fromValue (values.toValue record) = some record
  | _ => True

def Filed (run : SessionRun ρ) : Prop :=
  ∀ sessionId found, run.store.find sessionId = some found → found.sessionId = sessionId

variable {values} {run : SessionRun ρ}

variable {sessionId : String} {found : SessionMetadata}

section

variable (faithful : run.Faithful values)

include faithful

theorem Faithful.frame {store : SessionStore}
    {found' : SessionMetadata} (before : run.store.find sessionId = some found)
    (after : store.find sessionId = some found') (same : store.entries sessionId = run.store.entries sessionId) :
    store.replay values sessionId = .ok (run.appended sessionId) := by
  rw [store.replay_found after, same, ← run.store.replay_found before]
  exact faithful sessionId found before

/-- A creation keeps replays faithful just when it finds the log of its session empty. -/
theorem Faithful.create {metadata : SessionMetadata} (missing : run.store.find metadata.sessionId = none) :
    (run.step values (.create metadata)).Faithful values ↔ run.store.entries metadata.sessionId = [] := by
  have created : run.step values (.create metadata) =
      { store := run.store.put metadata
        appended := Function.update run.appended metadata.sessionId [] } := by
    simp [step, SessionStore.createSession, missing]
  simp only [created, Faithful]
  have present : (run.store.put metadata).find metadata.sessionId = some metadata := by
    rw [SessionStore.find_put, if_pos rfl]
  constructor
  · -- The log is replayed as it is, and nothing has been appended since the creation.
    intro after
    have replayed := after metadata.sessionId metadata present
    rw [SessionStore.replay_found _ present, SessionStore.entries_put, Function.update_self] at replayed
    cases entries : run.store.entries metadata.sessionId with
    | nil => rfl
    | cons entry rest =>
      rw [entries, List.mapM_cons] at replayed
      obtain ⟨first, -, replayed⟩ := Except.bind_eq_ok.1 replayed
      obtain ⟨others, -, wrong⟩ := Except.bind_eq_ok.1 replayed
      exact nomatch Except.pure_eq_ok.1 wrong
  · intro empty sessionId found after
    by_cases own : sessionId = metadata.sessionId
    · subst own
      rw [SessionStore.replay_found _ after, SessionStore.entries_put, empty, Function.update_self]
      rfl
    · rw [Function.update_of_ne own]
      have before := after
      rw [SessionStore.find_put, if_neg own] at before
      exact faithful.frame before after rfl

/-- An append keeps replays faithful just when its record is read back as itself. -/
theorem Faithful.append {target : String} (present : run.store.find target = some found) (record : ρ) :
    (run.step values (.append target record)).Faithful values ↔
      values.fromValue (values.toValue record) = some record := by
  have replayed := run.store.replay_appendRecord present values record
  have answer := run.store.appendRecord_fst present values record
  have others : ∀ sessionId, sessionId ≠ target →
      (run.store.appendRecord values target record).2.entries sessionId = run.store.entries sessionId := by
    intro sessionId other
    rw [run.store.entries_appendRecord present, if_neg other, List.append_nil]
  have after : ∀ sessionId, (run.store.appendRecord values target record).2.find sessionId =
      run.store.find sessionId := run.store.find_appendRecord values target record
  rw [faithful target found present, run.store.fromLogEntry_newEntry] at replayed
  rw [run.store.fromLogEntry_newEntry] at answer
  simp only [step, Faithful]
  generalize run.store.appendRecord values target record = answered at *
  obtain ⟨result, store⟩ := answered
  cases read : values.fromValue (values.toValue record) with
  | none =>
    -- The entry was appended although the answer is an error, and it stops every replay.
    simp only [read] at answer replayed
    subst answer
    refine ⟨fun wrong => ?_, nofun⟩
    exact nomatch replayed.symm.trans (wrong target found ((after target).trans present))
  | some same =>
    simp only [read] at answer replayed
    subst answer
    dsimp only at replayed others after ⊢
    constructor
    · intro now
      have equal := replayed.symm.trans (now target found ((after target).trans present))
      rw [Function.update_self] at equal
      -- The two lists end in what was read back and in what was appended.
      have last := List.append_cancel_left (Except.ok.inj equal)
      exact congrArg some (PersistedSessionRecord.mk.inj (List.cons.inj last).1).2.2.2
    · intro equal sessionId metadata there
      cases equal
      by_cases own : sessionId = target
      · subst own
        rw [Function.update_self]
        exact replayed
      · rw [Function.update_of_ne own]
        exact faithful.frame ((after sessionId).symm.trans there) there (others sessionId own)

theorem Faithful.update (filed : run.Filed) (target : String)
    {change : SessionMetadata → SessionMetadata} (kept : ∀ found, (change found).sessionId = found.sessionId) :
    ({ run with store := (run.store.update target change).2 } : SessionRun ρ).Faithful values := by
  cases present : run.store.find target with
  | none =>
    have same : (run.store.update target change).2 = run.store := by
      simp [SessionStore.update, SessionStore.metadata, present]
    rwa [same]
  | some metadata =>
    have changed : (run.store.update target change).2 = run.store.put (change metadata) := by
      simp [SessionStore.update, SessionStore.metadata, present]
    rw [changed]
    intro sessionId found after
    -- What is put stays under the id of the session, so no session comes into being.
    have id : (change metadata).sessionId = target := (kept metadata).trans (filed target metadata present)
    have before : ∃ found, run.store.find sessionId = some found := by
      have after := after
      rw [SessionStore.find_put, id] at after
      split at after
      · rename_i own
        exact ⟨metadata, own ▸ present⟩
      · exact ⟨found, after⟩
    obtain ⟨earlier, before⟩ := before
    exact faithful.frame before after rfl

theorem Faithful.delete (target : String) : (run.step values (.delete target)).Faithful values := by
  intro sessionId found after
  have before : run.store.find sessionId = some found := by
    have after := after
    rw [step, SessionStore.find_deleteSession] at after
    split at after
    · exact nomatch after
    · exact after
  exact faithful.frame before after rfl

/-- An operation keeps replays faithful just when it is clean. -/
theorem Faithful.step_iff (filed : run.Filed) (operation : SessionOp ρ) :
    (run.step values operation).Faithful values ↔ run.Clean values operation := by
  cases operation with
  | create metadata =>
    cases present : run.store.find metadata.sessionId with
    | none =>
      rw [faithful.create present]
      exact ⟨fun empty _ => empty, fun clean => clean present⟩
    | some found =>
      -- The session is there already, so nothing happens.
      have same : run.step values (.create metadata) = run := by
        simp [step, SessionStore.createSession, present]
      rw [same]
      exact ⟨fun _ missing => (nomatch missing.symm.trans present), fun _ => faithful⟩
  | append target record =>
    cases present : run.store.find target with
    | none =>
      have same : run.step values (.append target record) = run := by
        simp [step, run.store.appendRecord_missing present]
      rw [same]
      exact ⟨fun _ there => absurd present there, fun _ => faithful⟩
    | some found =>
      rw [faithful.append present]
      exact ⟨fun same _ => same, fun clean => clean (by rw [present]; exact Option.some_ne_none _)⟩
  | setTitle target title =>
    exact ⟨fun _ => trivial, fun _ =>
      faithful.update filed target fun _ => by simp only [SessionMetadata.withTitle]⟩
  | setDescription target description =>
    exact ⟨fun _ => trivial, fun _ =>
      faithful.update filed target fun _ => by simp only [SessionMetadata.withDescription]⟩
  | delete target => exact ⟨fun _ => trivial, fun _ => faithful.delete target⟩
  | replay target => exact ⟨fun _ => trivial, fun _ => faithful⟩

end

theorem filed_put (filed : run.Filed) (metadata : SessionMetadata)
    (after : (run.store.put metadata).find sessionId = some found) : found.sessionId = sessionId := by
  rw [SessionStore.find_put] at after
  split at after
  · rename_i own
    cases after
    exact own.symm
  · exact filed sessionId found after

theorem filed_update (filed : run.Filed) (target : String) (change : SessionMetadata → SessionMetadata)
     (after : (run.store.update target change).2.find sessionId = some found) : found.sessionId = sessionId := by
  rw [SessionStore.update] at after
  split at after
  · exact filed sessionId found after
  · exact filed_put filed _ after

theorem Filed.step (filed : run.Filed) (operation : SessionOp ρ) : (run.step values operation).Filed := by
  intro sessionId found after
  cases operation with
  | create metadata =>
    cases present : run.store.find metadata.sessionId with
    | none =>
      simp only [SessionRun.step, SessionStore.createSession, present] at after
      exact filed_put filed metadata after
    | some earlier =>
      simp only [SessionRun.step, SessionStore.createSession, present] at after
      exact filed sessionId found after
  | setTitle target | setDescription target => exact filed_update filed target _ after
  | delete target =>
    rw [SessionRun.step, SessionStore.find_deleteSession] at after
    split at after
    · exact nomatch after
    · exact filed sessionId found after
  | append target record =>
    have same : (run.step values (.append target record)).store =
        (run.store.appendRecord values target record).2 := by
      rw [SessionRun.step]
      split <;> rename_i answered <;> rw [answered]
    rw [same, SessionStore.find_appendRecord] at after
    exact filed sessionId found after
  | replay target => exact filed sessionId found after

end SessionRun

/--
Every session is replayed as what was appended to it since it was last created, just when every operation is clean.

A creation is clean if it finds the log of its session empty, and an append if its record is read back as itself.
-/
theorem replay_faithful_iff (values : RecordValues ρ) (scope : StorageScope) (operations : List (SessionOp ρ)) :
    (∀ done rest, operations = done ++ rest →
      (done.foldl (SessionRun.step values) { store := { scope } }).Faithful values) ↔
    ∀ done operation rest, operations = done ++ operation :: rest →
      (done.foldl (SessionRun.step values) { store := { scope } }).Clean values operation := by
  refine Run.throughout_iff_guarded (SessionRun.step values) SessionRun.Filed (SessionRun.Faithful values)
    (SessionRun.Clean values) ?_ ?_ ?_ ?_ operations
  · exact fun _ operation filed => filed.step operation
  · exact fun _ operation filed faithful => faithful.step_iff filed operation
  · intro sessionId metadata found
    rw [SessionStore.find_empty] at found
    exact nomatch found
  · intro sessionId metadata found
    rw [SessionStore.find_empty] at found
    exact nomatch found

def textRecords : RecordValues String where
  toValue := .string
  fromValue := Json.asStr

/-- A session that is deleted and created again is replayed with the records from before. -/
theorem recreated_session_replays_old :
    ¬([.create ⟨"s", "cli", none, none, none, none⟩, .append "s" "old", .delete "s",
      .create ⟨"s", "cli", none, none, none, none⟩].foldl (SessionRun.step textRecords)
        { store := { scope := {} } }).Faithful textRecords := by
  intro faithful
  have replayed := faithful "s" ⟨"s", "cli", none, none, none, none⟩ (by decide +kernel)
  revert replayed
  decide +kernel

end Codel00p
