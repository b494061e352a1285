import Codel00p.Cloud.Protocol
import Codel00p.Lib.Program
import Codel00p.Storage.Backend

/-! What the handlers of the cloud service work with: a storage backend, counters for ids, and records as JSON. -/

namespace Codel00p.Cloud

/-- The operations of a storage backend that the service uses. -/
structure StorageBackend (σ : Type) where
  putDocument : StorageDocument Json → σ → Except StorageError (StorageDocument Json) × σ
  getDocument : StorageScope → String → String → σ → Except StorageError (Option (StorageDocument Json))
  listDocuments : StorageScope → String → σ → Except StorageError (List (StorageDocument Json))
  deleteDocument : StorageScope → String → String → σ → Except StorageError Bool × σ
  appendLogEntry : StorageScope → String → Json → σ → Except StorageError (AppendLogEntry Json) × σ
  replayLog : StorageScope → String → σ → Except StorageError (List (AppendLogEntry Json))

/-- How records are turned into JSON values, and back. -/
structure PayloadCodec (α : Type) where
  toValue : α → Json
  fromValue : Json → Except String α

/-- All that the service takes from elsewhere. -/
structure CloudCodec where
  projects : PayloadCodec Project
  memory : PayloadCodec MemoryEntry
  audit : PayloadCodec MemoryAuditEntry
  agents : PayloadCodec CloudAgent
  servers : PayloadCodec McpServer
  /-- What is said about texts of the backend that make no sense. -/
  invalid : String := ""
  toLowercase : String → String := id

/-- The kinds of records that get an id from a counter of the process. -/
inductive RecordKind where
  | project
  | memory
  | agent
  | server
  deriving DecidableEq, Repr

/-- What the ids of a kind start with. -/
def RecordKind.label : RecordKind → String
  | .project => "proj_"
  | .memory => "mem_"
  | .agent => "agent_"
  | .server => "mcp_"

def RecordKind.collection : RecordKind → String
  | .project => "projects"
  | .memory => "memory"
  | .agent => "agents"
  | .server => "mcp_servers"

/-- The counters of a process; they start at one. -/
structure Counters where
  project : UInt64 := 1
  memory : UInt64 := 1
  agent : UInt64 := 1
  server : UInt64 := 1
  deriving DecidableEq

def Counters.at (counters : Counters) : RecordKind → UInt64
  | .project => counters.project
  | .memory => counters.memory
  | .agent => counters.agent
  | .server => counters.server

/-- The counters after a number of a kind was handed out. -/
def Counters.advance (counters : Counters) : RecordKind → Counters
  | .project => { counters with project := counters.project + 1 }
  | .memory => { counters with memory := counters.memory + 1 }
  | .agent => { counters with agent := counters.agent + 1 }
  | .server => { counters with server := counters.server + 1 }

def recordId (kind : RecordKind) (number : UInt64) : String := kind.label ++ toString number.toNat

/-- A running service: what is stored, and the counters of the process. -/
structure CloudState (σ : Type) where
  store : σ
  counters : Counters := {}

/-- What a handler does may stop with an error. -/
abbrev CloudM (σ : Type) := Program ApiError (CloudState σ)

variable {σ α : Type}

def nextId (kind : RecordKind) : CloudM σ String :=
  Program.perform fun state =>
    (recordId kind (state.counters.at kind), { state with counters := state.counters.advance kind })

variable (codec : CloudCodec) (backend : StorageBackend σ)

def storageErrorText : StorageError → String
  | .backend message => "backend failure: " ++ message
  | .serialization => "serialization failed: " ++ codec.invalid

/-- The result of an operation of the backend. -/
def storageResult : Except StorageError α → CloudM σ α
  | .ok value => pure value
  | .error error => throw (.internal (storageErrorText codec error))

def readStore (reader : σ → Except StorageError α) : CloudM σ α := do
  let answer ← Program.reads fun state => reader state.store
  storageResult codec answer

def writeStore (operation : σ → Except StorageError α × σ) : CloudM σ α := do
  let answer ← Program.within CloudState.store (fun store state => { state with store }) operation
  storageResult codec answer

def readPayload (payloads : PayloadCodec α) (name : String) (payload : Json) : Except ApiError α :=
  (payloads.fromValue payload).mapError fun error => .internal ("corrupt " ++ name ++ " record: " ++ error)

def storeRecord (payloads : PayloadCodec α) (kind : RecordKind) (scope : StorageScope) (id : String) (record : α)
    (metadata : List (String × String) := []) : CloudM σ Unit := do
  let _ ← writeStore codec (backend.putDocument
    { scope, collection := kind.collection, id, payload := payloads.toValue record, metadata })

def listRecords (payloads : PayloadCodec α) (name : String) (kind : RecordKind) (scope : StorageScope) :
    CloudM σ (List α) := do
  let documents ← readStore codec (backend.listDocuments scope kind.collection)
  Program.ofExcept (documents.mapM fun document => readPayload payloads name document.payload)

def findRecord (payloads : PayloadCodec α) (name : String) (kind : RecordKind) (scope : StorageScope) (id : String) :
    CloudM σ (Option α) := do
  let document ← readStore codec (backend.getDocument scope kind.collection id)
  Program.ofExcept (document.mapM fun document => readPayload payloads name document.payload)

def deleteRecord (name : String) (kind : RecordKind) (scope : StorageScope) (id : String) : CloudM σ Unit := do
  let deleted ← writeStore codec (backend.deleteDocument scope kind.collection id)
  if deleted then pure () else throw (.notFound (name ++ " " ++ id ++ " not found"))

def organizationScope (orgId : String) : StorageScope := { organizationId := some orgId }

def projectScope (orgId projectId : String) : StorageScope :=
  { organizationId := some orgId, projectId := some projectId }

/-- A text that is to be replaced by a new one, unless that is blank. -/
def replaced (existing : String) (new : Option String) : String := (new.bind nonEmptyFilter).getD existing

end Codel00p.Cloud
