import Codel00p.Storage.Backend

/-! The session store: metadata as documents, and records as an append-only log for each session. -/

namespace Codel00p

/-- What is known about a session. -/
structure SessionMetadata where
  sessionId : String
  source : String
  parentSessionId : Option String := none
  createdAt : Option Nat := none
  title : Option String := none
  description : Option String := none
  deriving DecidableEq, Repr

def SessionMetadata.withTitle (metadata : SessionMetadata) (title : String) : SessionMetadata :=
  { metadata with title := nonEmptyFilter title }

@[simp] theorem SessionMetadata.sessionId_withTitle (metadata : SessionMetadata) (title : String) :
    (metadata.withTitle title).sessionId = metadata.sessionId := by
  unfold withTitle
  rfl

def SessionMetadata.withDescription (metadata : SessionMetadata) (description : String) : SessionMetadata :=
  { metadata with description := nonEmptyFilter description }

inductive SessionStoreError where
  | sessionAlreadyExists (sessionId : String)
  | sessionNotFound (sessionId : String)
  | storage (error : StorageError)
  | serialization
  deriving DecidableEq, Repr

structure RecordValues (ρ : Type) where
  toValue : ρ → Json
  fromValue : Json → Option ρ

/-- A record as it is kept, with its ordinal. -/
structure PersistedSessionRecord (ρ : Type) where
  id : String
  sessionId : String
  sequence : Nat
  record : ρ
  deriving DecidableEq, Repr

def sessionMetadataCollection : String := "sessions"

def sessionRecordStream (sessionId : String) : String := "session/" ++ sessionId

/-- The session a log belongs to. -/
def sessionIdFromStream (stream : String) : Except SessionStoreError String :=
  match stripFront stream "session/" with
  | some sessionId => .ok sessionId
  | none => .error (.storage (.backend ("invalid session stream: " ++ stream)))

structure SessionStore where
  scope : StorageScope
  storage : InMemoryStorage SessionMetadata Json := {}

variable {ρ : Type} (values : RecordValues ρ)

def PersistedSessionRecord.fromLogEntry (entry : AppendLogEntry Json) :
    Except SessionStoreError (PersistedSessionRecord ρ) := do
  let sessionId ← sessionIdFromStream entry.stream
  match values.fromValue entry.payload with
  | some record => return { id := entry.id, sessionId, sequence := entry.sequence, record }
  | none => throw .serialization

namespace SessionStore

variable (store : SessionStore)

def find (sessionId : String) : Option SessionMetadata :=
  (store.storage.getDocument store.scope sessionMetadataCollection sessionId).map (·.payload)

def put (metadata : SessionMetadata) : SessionStore :=
  { store with
    storage := store.storage.putDocument
      { scope := store.scope, collection := sessionMetadataCollection, id := metadata.sessionId,
        payload := metadata } }

def metadata (sessionId : String) : Except SessionStoreError SessionMetadata :=
  match store.find sessionId with
  | some metadata => .ok metadata
  | none => .error (.sessionNotFound sessionId)

def createSession (metadata : SessionMetadata) : Except SessionStoreError Unit × SessionStore :=
  match store.find metadata.sessionId with
  | some _ => (.error (.sessionAlreadyExists metadata.sessionId), store)
  | none => (.ok (), store.put metadata)

def update (sessionId : String) (change : SessionMetadata → SessionMetadata) :
    Except SessionStoreError Unit × SessionStore :=
  match store.metadata sessionId with
  | .error error => (.error error, store)
  | .ok metadata => (.ok (), store.put (change metadata))

def setSessionTitle (sessionId title : String) : Except SessionStoreError Unit × SessionStore :=
  store.update sessionId (·.withTitle title)

def setSessionDescription (sessionId description : String) : Except SessionStoreError Unit × SessionStore :=
  store.update sessionId (·.withDescription description)

def deleteSession (sessionId : String) : Bool × SessionStore :=
  (store.storage.deleteDocument store.scope sessionMetadataCollection sessionId).map id
    fun storage => { store with storage }

def appendRecord (sessionId : String) (record : ρ) :
    Except SessionStoreError (PersistedSessionRecord ρ) × SessionStore :=
  match store.metadata sessionId with
  | .error error => (.error error, store)
  | .ok _ =>
    let stream := sessionRecordStream sessionId
    let payload := values.toValue record
    let entry := store.storage.appendedEntry store.scope stream payload
    (PersistedSessionRecord.fromLogEntry values entry,
      { store with storage := store.storage.appendLogEntry store.scope stream payload })

def entries (sessionId : String) : List (AppendLogEntry Json) :=
  store.storage.replayLog store.scope (sessionRecordStream sessionId)

/-- The records of a session that exists, in the order they were appended. -/
def replay (sessionId : String) : Except SessionStoreError (List (PersistedSessionRecord ρ)) := do
  let _ ← store.metadata sessionId
  (store.entries sessionId).mapM (PersistedSessionRecord.fromLogEntry values)

end SessionStore

end Codel00p
