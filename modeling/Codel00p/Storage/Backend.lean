import Mathlib.Data.String.Basic
import Codel00p.Lib.Json
import Codel00p.Lib.Table
import Codel00p.Storage.InMemory

/-! The operations of a storage backend, and how the in-memory backend answers them. -/

namespace Codel00p

/-- What can go wrong in a backend. -/
inductive StorageError where
  /-- A text of the backend cannot be read as what it should be. -/
  | serialization
  | backend (message : String)
  deriving DecidableEq, Repr

inductive StorageOp where
  | putValue (value : StorageValue Json)
  | getValue (scope : StorageScope) (key : String)
  | listValues (scope : StorageScope)
  | deleteValue (scope : StorageScope) (key : String)
  | putDocument (document : StorageDocument Json)
  | getDocument (scope : StorageScope) (collection id : String)
  | listDocuments (scope : StorageScope) (collection : String)
  | deleteDocument (scope : StorageScope) (collection id : String)
  | appendLogEntry (scope : StorageScope) (stream : String) (payload : Json)
  | replayLog (scope : StorageScope) (stream : String)

/-- What an operation answers when it succeeds. -/
inductive StorageAnswer where
  | value (stored : StorageValue Json)
  | foundValue (found : Option (StorageValue Json))
  | values (listed : List (StorageValue Json))
  | document (stored : StorageDocument Json)
  | foundDocument (found : Option (StorageDocument Json))
  | documents (listed : List (StorageDocument Json))
  | deleted (existed : Bool)
  | entry (appended : AppendLogEntry Json)
  | entries (replayed : List (AppendLogEntry Json))

/-- The scope an operation is about. -/
def StorageOp.scope : StorageOp → StorageScope
  | .putValue value => value.scope
  | .getValue scope _ => scope
  | .listValues scope => scope
  | .deleteValue scope _ => scope
  | .putDocument document => document.scope
  | .getDocument scope _ _ => scope
  | .listDocuments scope _ => scope
  | .deleteDocument scope _ _ => scope
  | .appendLogEntry scope _ _ => scope
  | .replayLog scope _ => scope

namespace InMemoryStorage

variable {δ ε : Type} (storage : InMemoryStorage δ ε)

def storedValue (value : StorageValue δ) : StorageValue δ :=
  let existing := storage.values.lookup ⟨value.scope, value.key⟩
  { value with version := (existing.map fun existing => existing.version + 1).getD 1 }

def putValue (value : StorageValue δ) : InMemoryStorage δ ε :=
  { storage with values := storage.values.insert ⟨value.scope, value.key⟩ (storage.storedValue value) }

def listValues (scope : StorageScope) : List (StorageValue δ) :=
  sortOn StorageValue.key ((storage.values.entries.filter fun entry => entry.1.scope = scope).map Sigma.snd)

def storedDocument (document : StorageDocument δ) : StorageDocument δ :=
  let existing := storage.documents.lookup ⟨document.scope, document.collection, document.id⟩
  { document with version := (existing.map fun existing => existing.version + 1).getD 1 }

theorem putDocument_eq (document : StorageDocument δ) : storage.putDocument document = { storage with
        documents := storage.documents.insert ⟨document.scope, document.collection, document.id⟩
          (storage.storedDocument document) } := rfl

def listDocuments (scope : StorageScope) (collection : String) : List (StorageDocument δ) :=
  sortOn StorageDocument.id ((storage.documents.entries.filter fun entry =>
    entry.1.scope = scope ∧ entry.1.collection = collection).map Sigma.snd)

def deleteDocument (scope : StorageScope) (collection id : String) : Bool × InMemoryStorage δ ε :=
  ((storage.documents.lookup ⟨scope, collection, id⟩).isSome,
    { storage with documents := storage.documents.erase ⟨scope, collection, id⟩ })

theorem getDocument_deleteDocument (scope target : StorageScope) (collection within id other : String) :
    (storage.deleteDocument target within other).2.getDocument scope collection id =
      if scope = target ∧ collection = within ∧ id = other then none
      else storage.getDocument scope collection id := by
  by_cases same : scope = target ∧ collection = within ∧ id = other
  · obtain ⟨rfl, rfl, rfl⟩ := same
    simp [deleteDocument, getDocument]
  · have apart : (⟨scope, collection, id⟩ : DocumentKey) ≠ ⟨target, within, other⟩ := by simpa using same
    simp [deleteDocument, getDocument, AList.lookup_erase_ne apart, if_neg same]

def appendedEntry (scope : StorageScope) (stream : String) (payload : ε) : AppendLogEntry ε :=
  let sequence := (storage.replayLog scope stream).length + 1
  { scope, stream, id := logEntryId sequence, sequence, payload }

end InMemoryStorage

/-- How the in-memory backend carries an operation out; it never fails. -/
def InMemoryStorage.step (operation : StorageOp) (storage : InMemoryStorage Json Json) :
    Except StorageError StorageAnswer × InMemoryStorage Json Json :=
  match operation with
  | .putValue value => (.ok (.value (storage.storedValue value)), storage.putValue value)
  | .getValue scope key => (.ok (.foundValue (storage.values.lookup ⟨scope, key⟩)), storage)
  | .listValues scope => (.ok (.values (storage.listValues scope)), storage)
  | .deleteValue scope key =>
    (.ok (.deleted (storage.values.lookup ⟨scope, key⟩).isSome),
      { storage with values := storage.values.erase ⟨scope, key⟩ })
  | .putDocument document =>
    (.ok (.document (storage.storedDocument document)), storage.putDocument document)
  | .getDocument scope collection id =>
    (.ok (.foundDocument (storage.getDocument scope collection id)), storage)
  | .listDocuments scope collection => (.ok (.documents (storage.listDocuments scope collection)), storage)
  | .deleteDocument scope collection id =>
    let (existed, reached) := storage.deleteDocument scope collection id
    (.ok (.deleted existed), reached)
  | .appendLogEntry scope stream payload =>
    (.ok (.entry (storage.appendedEntry scope stream payload)), storage.appendLogEntry scope stream payload)
  | .replayLog scope stream => (.ok (.entries (storage.replayLog scope stream)), storage)

end Codel00p
