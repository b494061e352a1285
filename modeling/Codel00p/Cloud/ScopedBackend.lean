import Codel00p.Cloud.Service
import Codel00p.Storage.Isolation

/-! Backends whose operations keep to the scope that they are given. -/

namespace Codel00p.Cloud

open StorageAnswer (foundDocument documents entries deleted entry)

section

variable {σ ν α : Type} (view : StorageScope → σ → ν) (scope : StorageScope)

def ReadsFrom (reader : σ → α) : Prop :=
  ∀ store other, view scope store = view scope other → reader store = reader other

/-- An operation keeps to a scope when it reads and changes nothing else. -/
structure KeepsTo (operation : σ → α × σ) : Prop where
  own : ∀ store other, view scope store = view scope other →
    (operation store).1 = (operation other).1 ∧ view scope (operation store).2 = view scope (operation other).2
  others : ∀ store target, target ≠ scope → view target (operation store).2 = view target store

end

structure ScopedBackend (σ : Type) extends StorageBackend σ where
  View : Type
  /-- What of a store belongs to a scope. -/
  view : StorageScope → σ → View
  gets : ∀ scope collection id, ReadsFrom view scope (getDocument scope collection id)
  lists : ∀ scope collection, ReadsFrom view scope (listDocuments scope collection)
  replays : ∀ scope stream, ReadsFrom view scope (replayLog scope stream)
  puts : ∀ document, KeepsTo view document.scope (putDocument document)
  deletes : ∀ scope collection id, KeepsTo view scope (deleteDocument scope collection id)
  appends : ∀ scope stream payload, KeepsTo view scope (appendLogEntry scope stream payload)

theorem except_map_injective {ε α β : Type} {wrap : α → β} (injective : Function.Injective wrap) :
    Function.Injective (Except.map wrap : Except ε α → Except ε β) := by
  intro first second same
  cases first <;> cases second <;> simp_all [Except.map, injective.eq_iff]

section

variable {σ ν α : Type} {view : StorageScope → σ → ν} {scope : StorageScope} {wrap : α → StorageAnswer}
  (injective : Function.Injective wrap)

include injective

theorem ReadsFrom.of_step {reader : σ → Except StorageError α}
    (keeps : KeepsTo view scope fun store => ((reader store).map wrap, store)) : ReadsFrom view scope reader :=
  fun store other same => except_map_injective injective (keeps.own store other same).1

theorem KeepsTo.of_step {writer : σ → Except StorageError α × σ}
    (keeps : KeepsTo view scope fun store => ((writer store).1.map wrap, (writer store).2)) :
    KeepsTo view scope writer :=
  ⟨fun store other same => (keeps.own store other same).imp_left fun wrapped => except_map_injective injective wrapped,
    keeps.others⟩

end

def inMemoryBackend : StorageBackend (InMemoryStorage Json Json) where
  putDocument document storage := (.ok (storage.storedDocument document), storage.putDocument document)
  getDocument scope collection id storage := .ok (storage.getDocument scope collection id)
  listDocuments scope collection storage := .ok (storage.listDocuments scope collection)
  deleteDocument scope collection id storage :=
    (.ok (storage.deleteDocument scope collection id).1, (storage.deleteDocument scope collection id).2)
  appendLogEntry scope stream payload storage :=
    (.ok (storage.appendedEntry scope stream payload), storage.appendLogEntry scope stream payload)
  replayLog scope stream storage := .ok (storage.replayLog scope stream)

theorem InMemoryStorage.step_keepsTo (operation : StorageOp) :
    KeepsTo InMemoryStorage.view operation.scope (InMemoryStorage.step operation) :=
  ⟨fun _ _ same => InMemoryStorage.step_of_view same, fun _ _ apart => InMemoryStorage.view_step_other apart.symm⟩

/-- The in-memory backend keeps its scopes apart. -/
def inMemoryScoped : ScopedBackend (InMemoryStorage Json Json) where
  toStorageBackend := inMemoryBackend
  View := _
  view := InMemoryStorage.view
  gets scope collection id := .of_step (fun _ _ => foundDocument.inj) (InMemoryStorage.step_keepsTo (.getDocument scope collection id))
  lists scope collection := .of_step (fun _ _ => documents.inj) (InMemoryStorage.step_keepsTo (.listDocuments scope collection))
  replays scope stream := .of_step (fun _ _ => entries.inj) (InMemoryStorage.step_keepsTo (.replayLog scope stream))
  puts document := .of_step (fun _ _ => StorageAnswer.document.inj) (InMemoryStorage.step_keepsTo (.putDocument document))
  deletes scope collection id := .of_step (fun _ _ => deleted.inj) (InMemoryStorage.step_keepsTo (.deleteDocument scope collection id))
  appends scope stream payload := .of_step (fun _ _ => entry.inj) (InMemoryStorage.step_keepsTo (.appendLogEntry scope stream payload))

section

variable (codec : JsonCodec)

def sqliteBackend : StorageBackend SqliteStorage where
  putDocument document tables := tables.putDocument codec document
  getDocument scope collection id tables := tables.getDocument codec scope collection id
  listDocuments scope collection tables := tables.listDocuments codec scope collection
  deleteDocument scope collection id tables :=
    (.ok (tables.deleteDocument scope collection id).1, (tables.deleteDocument scope collection id).2)
  appendLogEntry scope stream payload tables := tables.appendLogEntry codec scope stream payload
  replayLog scope stream tables := tables.replayLog codec scope stream

theorem SqliteStorage.step_keepsTo (operation : StorageOp) :
    KeepsTo SqliteStorage.view operation.scope (SqliteStorage.step codec operation) :=
  ⟨fun _ _ same => SqliteStorage.step_of_view same, fun _ _ apart => SqliteStorage.view_step_other apart.symm⟩

/-- The SQLite backend keeps its scopes apart. -/
def sqliteScoped : ScopedBackend SqliteStorage where
  toStorageBackend := sqliteBackend codec
  View := _
  view := SqliteStorage.view
  gets scope collection id := .of_step (fun _ _ => foundDocument.inj) (SqliteStorage.step_keepsTo codec (.getDocument scope collection id))
  lists scope collection := .of_step (fun _ _ => documents.inj) (SqliteStorage.step_keepsTo codec (.listDocuments scope collection))
  replays scope stream := .of_step (fun _ _ => entries.inj) (SqliteStorage.step_keepsTo codec (.replayLog scope stream))
  puts document := .of_step (fun _ _ => StorageAnswer.document.inj) (SqliteStorage.step_keepsTo codec (.putDocument document))
  deletes scope collection id := .of_step (fun _ _ => deleted.inj) (SqliteStorage.step_keepsTo codec (.deleteDocument scope collection id))
  appends scope stream payload := .of_step (fun _ _ => entry.inj) (SqliteStorage.step_keepsTo codec (.appendLogEntry scope stream payload))

end

end Codel00p.Cloud
