import Mathlib.Data.List.AList

/-! The in-memory storage backend: versioned documents and append-only logs, both kept by scope. -/

namespace Codel00p

/-- The part of the deployment that a stored item belongs to. -/
structure StorageScope where
  organizationId : Option String := none
  projectId : Option String := none
  workspaceId : Option String := none
  userId : Option String := none
  deriving DecidableEq, Repr

structure StorageDocument (δ : Type) where
  scope : StorageScope
  collection : String
  id : String
  version : Nat := 0
  payload : δ
  metadata : List (String × String) := []

structure StorageValue (δ : Type) where
  scope : StorageScope
  key : String
  version : Nat := 0
  payload : δ
  metadata : List (String × String) := []

structure AppendLogEntry (ε : Type) where
  scope : StorageScope
  stream : String
  id : String
  sequence : Nat
  payload : ε
  metadata : List (String × String) := []

structure DocumentKey where
  scope : StorageScope
  collection : String
  id : String
  deriving DecidableEq

structure ValueKey where
  scope : StorageScope
  key : String
  deriving DecidableEq

structure LogKey where
  scope : StorageScope
  stream : String
  deriving DecidableEq

structure InMemoryStorage (δ ε : Type) where
  values : AList (fun _ : ValueKey => StorageValue δ) := ∅
  documents : AList (fun _ : DocumentKey => StorageDocument δ) := ∅
  logs : AList (fun _ : LogKey => List (AppendLogEntry ε)) := ∅

namespace InMemoryStorage

variable {δ ε : Type}

def putDocument (storage : InMemoryStorage δ ε) (document : StorageDocument δ) :
    InMemoryStorage δ ε :=
  let key : DocumentKey := ⟨document.scope, document.collection, document.id⟩
  let nextVersion := ((storage.documents.lookup key).map fun existing => existing.version + 1).getD 1
  { storage with documents := storage.documents.insert key { document with version := nextVersion } }

def getDocument (storage : InMemoryStorage δ ε) (scope : StorageScope) (collection id : String) :
    Option (StorageDocument δ) :=
  storage.documents.lookup ⟨scope, collection, id⟩

def replayLog (storage : InMemoryStorage δ ε) (scope : StorageScope) (stream : String) :
    List (AppendLogEntry ε) :=
  (storage.logs.lookup ⟨scope, stream⟩).getD []

def logEntryId (sequence : Nat) : String := "log-entry-" ++ toString sequence

def appendLogEntry (storage : InMemoryStorage δ ε) (scope : StorageScope) (stream : String)
    (payload : ε) : InMemoryStorage δ ε :=
  let entries := storage.replayLog scope stream
  let sequence := entries.length + 1
  let entry : AppendLogEntry ε :=
    { scope, stream, id := logEntryId sequence, sequence, payload }
  { storage with logs := storage.logs.insert ⟨scope, stream⟩ (entries ++ [entry]) }

section

variable (storage : InMemoryStorage δ ε)

include storage

@[simp] theorem getDocument_putDocument_payload
    (document : StorageDocument δ) (scope : StorageScope) (collection id : String) :
    ((storage.putDocument document).getDocument scope collection id).map StorageDocument.payload =
      if scope = document.scope ∧ collection = document.collection ∧ id = document.id then
        some document.payload
      else (storage.getDocument scope collection id).map StorageDocument.payload := by
  -- The insertion is read at its own key or passed over, and the version never reaches the payload.
  by_cases same : scope = document.scope ∧ collection = document.collection ∧ id = document.id
  · rcases same with ⟨rfl, rfl, rfl⟩
    simp [putDocument, getDocument]
  · have apart : (⟨scope, collection, id⟩ : DocumentKey) ≠
        ⟨document.scope, document.collection, document.id⟩ := by
      simpa using same
    simp [putDocument, getDocument, AList.lookup_insert_ne apart, if_neg same]

@[simp] theorem replayLog_putDocument (document : StorageDocument δ) (scope : StorageScope) (stream : String) :
    (storage.putDocument document).replayLog scope stream = storage.replayLog scope stream := rfl

@[simp] theorem getDocument_appendLogEntry (target : StorageScope)
    (stream : String) (payload : ε) (scope : StorageScope) (collection id : String) :
    (storage.appendLogEntry target stream payload).getDocument scope collection id =
      storage.getDocument scope collection id := rfl

theorem replayLog_appendLogEntry_self (scope : StorageScope)
    (stream : String) (payload : ε) : (storage.appendLogEntry scope stream payload).replayLog scope stream =
      storage.replayLog scope stream ++
        [{ scope, stream, id := logEntryId ((storage.replayLog scope stream).length + 1),
           sequence := (storage.replayLog scope stream).length + 1, payload }] := by
  simp [appendLogEntry, replayLog]

theorem replayLog_appendLogEntry_other {scope target : StorageScope}
    {stream into : String} (payload : ε) (apart : ¬(scope = target ∧ stream = into)) :
    (storage.appendLogEntry target into payload).replayLog scope stream = storage.replayLog scope stream := by
  have keys : (⟨scope, stream⟩ : LogKey) ≠ ⟨target, into⟩ := by simpa using apart
  simp [appendLogEntry, replayLog, AList.lookup_insert_ne keys]

theorem replayLog_appendLogEntry_ne (scope : StorageScope)
    {stream target : String} (payload : ε) (apart : stream ≠ target) :
    (storage.appendLogEntry scope target payload).replayLog scope stream = storage.replayLog scope stream :=
  storage.replayLog_appendLogEntry_other payload fun same => apart same.2

end

end InMemoryStorage

end Codel00p
