import Codel00p.Lib.JsonText
import Codel00p.Storage.Backend

/-! The SQLite backend: its tables, its statements, and its operations. -/

namespace Codel00p

structure ValueRow where
  scope : String
  key : String
  version : Nat
  payload : String
  metadata : String

structure DocumentRow where
  scope : String
  collection : String
  id : String
  version : Nat
  payload : String
  metadata : String

structure LogRow where
  scope : String
  stream : String
  sequence : Nat
  id : String
  payload : String
  metadata : String

def ValueRow.primary (row : ValueRow) : String × String := (row.scope, row.key)

def DocumentRow.primary (row : DocumentRow) : String × String × String := (row.scope, row.collection, row.id)

def LogRow.primary (row : LogRow) : String × String × Nat := (row.scope, row.stream, row.sequence)

/-- The three tables of a database. -/
structure SqliteStorage where
  values : Table ValueRow.primary := {}
  documents : Table DocumentRow.primary := {}
  logs : Table LogRow.primary := {}

def scopeKey (scope : StorageScope) : String :=
  String.ofList (JsonText.field "\x7b\"organization_id\":" scope.organizationId
    ++ (JsonText.field ",\"project_id\":" scope.projectId
    ++ (JsonText.field ",\"workspace_id\":" scope.workspaceId
    ++ (JsonText.field ",\"user_id\":" scope.userId ++ ['\x7d']))))

def metadataJson (metadata : List (String × String)) : Json :=
  .object (metadata.map fun (key, value) => (key, .string value))

def metadataOf (value : Json) : Option (List (String × String)) :=
  value.asObject.bind fun fields => fields.mapM fun (key, value) => value.asStr.map (key, ·)

section

variable (codec : JsonCodec)

def readColumns (payload metadata : String) : Except StorageError (Json × List (String × String)) :=
  match codec.parse payload, (codec.parse metadata).bind metadataOf with
  | some payload, some metadata => .ok (payload, metadata)
  | _, _ => .error .serialization

def ValueRow.read (row : ValueRow) (scope : StorageScope) (key : String) :
    Except StorageError (StorageValue Json) := do
  let (payload, metadata) ← readColumns codec row.payload row.metadata
  return { scope, key, version := row.version, payload, metadata }

def DocumentRow.read (row : DocumentRow) (scope : StorageScope) (collection id : String) :
    Except StorageError (StorageDocument Json) := do
  let (payload, metadata) ← readColumns codec row.payload row.metadata
  return { scope, collection, id, version := row.version, payload, metadata }

def LogRow.read (row : LogRow) (scope : StorageScope) (stream : String) :
    Except StorageError (AppendLogEntry Json) := do
  let (payload, metadata) ← readColumns codec row.payload row.metadata
  return { scope, stream, id := row.id, sequence := row.sequence, payload, metadata }

def valueRow (value : StorageValue Json) : ValueRow :=
  { scope := scopeKey value.scope, key := value.key, version := value.version,
    payload := codec.render value.payload, metadata := codec.render (metadataJson value.metadata) }

def documentRow (document : StorageDocument Json) : DocumentRow :=
  { scope := scopeKey document.scope, collection := document.collection, id := document.id,
    version := document.version, payload := codec.render document.payload,
    metadata := codec.render (metadataJson document.metadata) }

def logRow (entry : AppendLogEntry Json) : LogRow :=
  { scope := scopeKey entry.scope, stream := entry.stream, sequence := entry.sequence, id := entry.id,
    payload := codec.render entry.payload, metadata := codec.render (metadataJson entry.metadata) }

namespace SqliteStorage

variable (storage : SqliteStorage)

def valueVersion (scope key : String) : Option Nat := (storage.values.find (scope, key)).map (·.version)

def documentVersion (scope collection id : String) : Option Nat :=
  (storage.documents.find (scope, collection, id)).map (·.version)

/-- The version after the one that was read. -/
def nextVersion (version : Option Nat) : Nat := (version.map (· + 1)).getD 1

def putValue (value : StorageValue Json) : Except StorageError (StorageValue Json) × SqliteStorage :=
  let version := nextVersion (storage.valueVersion (scopeKey value.scope) value.key)
  let stored := { value with version }
  (.ok stored, { storage with values := storage.values.upsert (valueRow codec stored) })

def getValue (scope : StorageScope) (key : String) : Except StorageError (Option (StorageValue Json)) :=
  match storage.values.find (scopeKey scope, key) with
  | some row => some <$> row.read codec scope key
  | none => .ok none

def listValues (scope : StorageScope) : Except StorageError (List (StorageValue Json)) :=
  (sortOn ValueRow.key (storage.values.select fun row => row.scope = scopeKey scope)).mapM
    fun row => row.read codec scope row.key

def deleteValue (scope : StorageScope) (key : String) : Bool × SqliteStorage :=
  ((storage.values.find (scopeKey scope, key)).isSome,
    { storage with values := storage.values.remove (scopeKey scope, key) })

def putDocument (document : StorageDocument Json) :
    Except StorageError (StorageDocument Json) × SqliteStorage :=
  let version :=
    nextVersion (storage.documentVersion (scopeKey document.scope) document.collection document.id)
  let stored := { document with version }
  (.ok stored, { storage with documents := storage.documents.upsert (documentRow codec stored) })

def getDocument (scope : StorageScope) (collection id : String) :
    Except StorageError (Option (StorageDocument Json)) :=
  match storage.documents.find (scopeKey scope, collection, id) with
  | some row => some <$> row.read codec scope collection id
  | none => .ok none

def listDocuments (scope : StorageScope) (collection : String) :
    Except StorageError (List (StorageDocument Json)) :=
  (sortOn DocumentRow.id (storage.documents.select fun row =>
    row.scope = scopeKey scope ∧ row.collection = collection)).mapM
    fun row => row.read codec scope collection row.id

def deleteDocument (scope : StorageScope) (collection id : String) : Bool × SqliteStorage :=
  ((storage.documents.find (scopeKey scope, collection, id)).isSome,
    { storage with documents := storage.documents.remove (scopeKey scope, collection, id) })

def logRows (scope stream : String) : List LogRow :=
  storage.logs.select fun row => row.scope = scope ∧ row.stream = stream

/-- The statement that reads one past the largest number of a log. -/
def nextSequence (scope stream : String) : Nat := ((storage.logRows scope stream).map (·.sequence)).max?.getD 0 + 1

def numberedEntry (scope : StorageScope) (stream : String) (payload : Json) (sequence : Nat) :
    AppendLogEntry Json :=
  { scope, stream, id := InMemoryStorage.logEntryId sequence, sequence, payload }

/-- The statement that inserts a log entry, which fails if its number is taken. -/
def insertLogRow (row : LogRow) : Except StorageError SqliteStorage :=
  match storage.logs.insert row with
  | some logs => .ok { storage with logs }
  | none => .error (.backend
      "UNIQUE constraint failed: storage_logs.scope, storage_logs.stream, storage_logs.sequence")

/-- Insert an entry and commit, or fail and roll back. -/
def appended (entry : AppendLogEntry Json) : Except StorageError (AppendLogEntry Json) × SqliteStorage :=
  match storage.insertLogRow (logRow codec entry) with
  | .ok reached => (.ok entry, reached)
  | .error error => (.error error, storage)

def appendLogEntry (scope : StorageScope) (stream : String) (payload : Json) :
    Except StorageError (AppendLogEntry Json) × SqliteStorage :=
  storage.appended codec (numberedEntry scope stream payload (storage.nextSequence (scopeKey scope) stream))

def replayLog (scope : StorageScope) (stream : String) :
    Except StorageError (List (AppendLogEntry Json)) :=
  (sortOn LogRow.sequence (storage.logRows (scopeKey scope) stream)).mapM fun row => row.read codec scope stream

end SqliteStorage

/-- How the SQLite backend carries an operation out. -/
def SqliteStorage.step (operation : StorageOp) (storage : SqliteStorage) :
    Except StorageError StorageAnswer × SqliteStorage :=
  match operation with
  | .putValue value => (storage.putValue codec value).map (Except.map .value) id
  | .getValue scope key => (.foundValue <$> storage.getValue codec scope key, storage)
  | .listValues scope => (.values <$> storage.listValues codec scope, storage)
  | .deleteValue scope key => (storage.deleteValue scope key).map (fun existed => .ok (.deleted existed)) id
  | .putDocument document => (storage.putDocument codec document).map (Except.map .document) id
  | .getDocument scope collection id =>
    (.foundDocument <$> storage.getDocument codec scope collection id, storage)
  | .listDocuments scope collection =>
    (.documents <$> storage.listDocuments codec scope collection, storage)
  | .deleteDocument scope collection key =>
    (storage.deleteDocument scope collection key).map (fun existed => .ok (.deleted existed)) id
  | .appendLogEntry scope stream payload =>
    (storage.appendLogEntry codec scope stream payload).map (Except.map .entry) id
  | .replayLog scope stream => (.entries <$> storage.replayLog codec scope stream, storage)

end

theorem scopeKey_injective : Function.Injective scopeKey := by
  intro scope other same
  have chars := String.ofList_injective same
  -- Each field is read off in turn: a quoted id tells where it ends.
  obtain ⟨organization, chars⟩ := JsonText.field_append_inj chars
  obtain ⟨project, chars⟩ := JsonText.field_append_inj chars
  obtain ⟨workspace, chars⟩ := JsonText.field_append_inj chars
  obtain ⟨user, _⟩ := JsonText.field_append_inj chars
  cases scope
  cases other
  simp_all

open JsonText (nestedCodec nestedArray)

theorem readColumns_nestedArray (depth : Nat) : readColumns nestedCodec (nestedCodec.render (nestedArray depth))
      (nestedCodec.render (metadataJson [])) =
      if depth < 127 then .ok (nestedArray depth, []) else .error .serialization := by
  have read := JsonText.readNested_nestedText depth 127 []
  rw [List.append_nil] at read
  simp only [readColumns, nestedCodec, String.toList_ofList, read]
  by_cases shallow : depth < 127
  · simp [shallow]
    rfl
  · simp [shallow]

end Codel00p
