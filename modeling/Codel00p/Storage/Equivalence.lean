import Codel00p.Storage.Isolation
import Codel00p.Storage.Logs

/-! The SQLite backend answers every history of operations as the in-memory backend does. -/

namespace Codel00p

section

variable (codec : JsonCodec)

def StorageOp.Readable : StorageOp → Prop
  | .putValue value => Codel00p.Readable codec value.payload value.metadata
  | .putDocument document => Codel00p.Readable codec document.payload document.metadata
  | .appendLogEntry _ _ payload => Codel00p.Readable codec payload []
  | _ => True

def valueKey (value : StorageValue Json) : ValueKey := ⟨value.scope, value.key⟩

def documentKey (document : StorageDocument Json) : DocumentKey := ⟨document.scope, document.collection, document.id⟩

def valueEncoding : RowEncoding ValueRow.primary ValueKey (StorageValue Json) where
  encode k := (scopeKey k.scope, k.key)
  row k value := valueRow codec { value with scope := k.scope, key := k.key }
  injective := by
    rintro ⟨scope, key⟩ ⟨other, key'⟩ same
    obtain ⟨scopes, rfl⟩ := Prod.mk.inj same
    cases scopeKey_injective scopes
    rfl
  keyed _ _ := rfl

def documentEncoding : RowEncoding DocumentRow.primary DocumentKey (StorageDocument Json) where
  encode k := (scopeKey k.scope, k.collection, k.id)
  row k document :=
    documentRow codec { document with scope := k.scope, collection := k.collection, id := k.id }
  injective := by
    rintro ⟨scope, collection, id⟩ ⟨other, collection', id'⟩ same
    obtain ⟨scopes, names⟩ := Prod.mk.inj same
    obtain ⟨rfl, rfl⟩ := Prod.mk.inj names
    cases scopeKey_injective scopes
    rfl
  keyed _ _ := rfl

def InMemoryStorage.listChosen {δ ε : Type} (storage : InMemoryStorage δ ε) (scope : StorageScope)
    (choose : String → Bool) : List (StorageValue δ) :=
  sortOn StorageValue.key ((storage.values.entries.filter fun entry =>
    entry.1.scope = scope && choose entry.1.key).map Sigma.snd)

structure Mirrors (storage : InMemoryStorage Json Json) (tables : SqliteStorage) : Prop where
  values : Table.Holds (valueEncoding codec) tables.values storage.values
  documents : Table.Holds (documentEncoding codec) tables.documents storage.documents
  logs : LogsHold codec tables storage.replayLog
  valuesFiled : ∀ entry ∈ storage.values.entries,
    entry.1 = valueKey entry.2 ∧ Readable codec entry.2.payload entry.2.metadata
  documentsFiled : ∀ entry ∈ storage.documents.entries,
    entry.1 = documentKey entry.2 ∧ Readable codec entry.2.payload entry.2.metadata
  logsReadable : ∀ scope stream, ∀ entry ∈ storage.replayLog scope stream, Readable codec entry.payload entry.metadata

theorem mem_entries_insert {K V : Type} [DecidableEq K] {map : AList fun _ : K => V} {k : K} {value : V}
    {entry : Sigma fun _ : K => V} (member : entry ∈ (map.insert k value).entries) :
    entry = ⟨k, value⟩ ∨ entry ∈ map.entries := by
  rw [AList.entries_insert] at member
  rcases List.mem_cons.1 member with new | old
  · exact .inl new
  · exact .inr ((List.kerase_sublist k map.entries).subset old)

variable {codec}

theorem valueRow_read {value : StorageValue Json} (readable : Readable codec value.payload value.metadata) :
    (valueRow codec value).read codec value.scope value.key = .ok value := by
  simp only [ValueRow.read, valueRow]
  rw [Readable] at readable
  rw [readable]
  rfl

theorem documentRow_read {document : StorageDocument Json}
    (readable : Readable codec document.payload document.metadata) :
    (documentRow codec document).read codec document.scope document.collection document.id = .ok document := by
  simp only [DocumentRow.read, documentRow]
  rw [Readable] at readable
  rw [readable]
  rfl

namespace Mirrors

variable {storage : InMemoryStorage Json Json} {tables : SqliteStorage}

theorem empty : Mirrors codec {} {} where
  values := .empty
  documents := .empty
  logs := .empty rfl
  valuesFiled _ member := nomatch member
  documentsFiled _ member := nomatch member
  logsReadable _ _ _ member := nomatch member

section

variable (mirrors : Mirrors codec storage tables)

include mirrors

section

variable (scope : StorageScope)

include scope

theorem getValue (key : String) : tables.getValue codec scope key = .ok (storage.values.lookup ⟨scope, key⟩) := by
  have found := mirrors.values.find ⟨scope, key⟩
  cases stored : storage.values.lookup ⟨scope, key⟩ with
  | none =>
    rw [stored] at found
    simp only [SqliteStorage.getValue]
    rw [show tables.values.find (scopeKey scope, key) = none from found]
  | some value =>
    rw [stored] at found
    obtain ⟨filed, readable⟩ := mirrors.valuesFiled _ (AList.mem_lookup_iff.1 (Option.mem_def.2 stored))
    obtain ⟨rfl, rfl⟩ : scope = value.scope ∧ key = value.key := by simpa [valueKey] using filed
    simp only [SqliteStorage.getValue]
    rw [show tables.values.find (scopeKey value.scope, value.key) = some (valueRow codec value) from found]
    simp only [valueRow_read readable]
    rfl

theorem getDocument (collection id : String) :
    tables.getDocument codec scope collection id = .ok (storage.getDocument scope collection id) := by
  have found := mirrors.documents.find ⟨scope, collection, id⟩
  rw [InMemoryStorage.getDocument]
  cases stored : storage.documents.lookup ⟨scope, collection, id⟩ with
  | none =>
    rw [stored] at found
    simp only [SqliteStorage.getDocument]
    rw [show tables.documents.find (scopeKey scope, collection, id) = none from found]
  | some document =>
    rw [stored] at found
    obtain ⟨filed, readable⟩ := mirrors.documentsFiled _ (AList.mem_lookup_iff.1 (Option.mem_def.2 stored))
    obtain ⟨rfl, rfl, rfl⟩ :
        scope = document.scope ∧ collection = document.collection ∧ id = document.id := by
      simpa [documentKey] using filed
    simp only [SqliteStorage.getDocument]
    rw [show tables.documents.find (scopeKey document.scope, document.collection, document.id) =
      some (documentRow codec document) from found]
    simp only [documentRow_read readable]
    rfl

theorem listChosen (choose : String → Bool) :
    (sortOn ValueRow.key (tables.values.select fun row => row.scope = scopeKey scope && choose row.key)).mapM
        (fun row => row.read codec scope row.key) = .ok (storage.listChosen scope choose) := by
  rw [mirrors.values.listing valueKey (fun row => row.scope = scopeKey scope && choose row.key)
    (fun k => k.scope = scope && choose k.key) ValueRow.key StorageValue.key
    (fun entry member => (mirrors.valuesFiled entry member).1)
    (fun k value => by simp [valueEncoding, valueRow, scopeKey_injective.eq_iff]) (fun _ => rfl) ?_]
  · -- Each listed value was filed under the scope, and can be read.
    refine Except.mapM_map_eq_ok.2 fun value member => ?_
    obtain ⟨entry, inside, rfl⟩ := List.mem_map.1 ((sortOn_perm _ _).subset member)
    obtain ⟨stored, own⟩ := List.mem_filter.1 inside
    obtain ⟨filed, readable⟩ := mirrors.valuesFiled entry stored
    rw [filed] at own
    obtain rfl : entry.2.scope = scope := of_decide_eq_true (Bool.and_eq_true_iff.1 own).1
    exact valueRow_read readable
  · intro value other own same keys
    have own : value.scope = scope := of_decide_eq_true (Bool.and_eq_true_iff.1 own).1
    have same : other.scope = scope := of_decide_eq_true (Bool.and_eq_true_iff.1 same).1
    rw [valueKey, valueKey, own, same, keys]

theorem listValues : tables.listValues codec scope = .ok (storage.listValues scope) := by
  simpa [SqliteStorage.listValues, InMemoryStorage.listValues, InMemoryStorage.listChosen] using mirrors.listChosen scope fun _ => true

theorem listDocuments (collection : String) :
    tables.listDocuments codec scope collection = .ok (storage.listDocuments scope collection) := by
  rw [SqliteStorage.listDocuments, mirrors.documents.listing documentKey
    (fun row => row.scope = scopeKey scope ∧ row.collection = collection)
    (fun k => k.scope = scope ∧ k.collection = collection) DocumentRow.id StorageDocument.id
    (fun entry member => (mirrors.documentsFiled entry member).1)
    (fun k value => by simp [documentEncoding, documentRow, scopeKey_injective.eq_iff]) (fun _ => rfl) ?_]
  · refine Except.mapM_map_eq_ok.2 fun document member => ?_
    obtain ⟨entry, inside, rfl⟩ := List.mem_map.1 ((sortOn_perm _ _).subset member)
    obtain ⟨stored, own⟩ := List.mem_filter.1 inside
    obtain ⟨filed, readable⟩ := mirrors.documentsFiled entry stored
    rw [filed] at own
    obtain ⟨rfl, rfl⟩ : entry.2.scope = scope ∧ entry.2.collection = collection := of_decide_eq_true own
    exact documentRow_read readable
  · intro document other own same ids
    have own : document.scope = scope ∧ document.collection = collection := of_decide_eq_true own
    have same : other.scope = scope ∧ other.collection = collection := of_decide_eq_true same
    rw [documentKey, documentKey, own.1, own.2, same.1, same.2, ids]

theorem replayLog (stream : String) : tables.replayLog codec scope stream = .ok (storage.replayLog scope stream) :=
  (mirrors.logs.replayLog_iff scope stream).2 (mirrors.logsReadable scope stream)

end

theorem storedValue (value : StorageValue Json) :
    { value with version := SqliteStorage.nextVersion (tables.valueVersion (scopeKey value.scope) value.key) } =
      storage.storedValue value := by
  have found : tables.values.find (scopeKey value.scope, value.key) = _ :=
    mirrors.values.find ⟨value.scope, value.key⟩
  -- The row that is found carries the version of the value it is for.
  simp only [SqliteStorage.valueVersion, found, InMemoryStorage.storedValue, SqliteStorage.nextVersion]
  cases storage.values.lookup ⟨value.scope, value.key⟩ <;> rfl

theorem storedDocument (document : StorageDocument Json) : { document with
      version := SqliteStorage.nextVersion
        (tables.documentVersion (scopeKey document.scope) document.collection document.id) } =
      storage.storedDocument document := by
  have found : tables.documents.find (scopeKey document.scope, document.collection, document.id) = _ :=
    mirrors.documents.find ⟨document.scope, document.collection, document.id⟩
  simp only [SqliteStorage.documentVersion, found, InMemoryStorage.storedDocument, SqliteStorage.nextVersion]
  cases storage.documents.lookup ⟨document.scope, document.collection, document.id⟩ <;> rfl

theorem putValue {value : StorageValue Json} (readable : Readable codec value.payload value.metadata) :
    Mirrors codec (storage.putValue value) (tables.putValue codec value).2 := by
  rw [SqliteStorage.putValue]
  simp only [mirrors.storedValue]
  exact { mirrors with
    logs := mirrors.logs.of_logs_eq rfl
    values := mirrors.values.upsert ⟨value.scope, value.key⟩ (storage.storedValue value)
    valuesFiled := by
      intro entry member
      rcases mem_entries_insert member with rfl | old
      · exact ⟨rfl, readable⟩
      · exact mirrors.valuesFiled entry old }

theorem putDocument {document : StorageDocument Json} (readable : Readable codec document.payload document.metadata) :
    Mirrors codec (storage.putDocument document) (tables.putDocument codec document).2 := by
  rw [SqliteStorage.putDocument]
  simp only [mirrors.storedDocument]
  exact { mirrors with
    logs := mirrors.logs.of_logs_eq rfl
    documents := mirrors.documents.upsert ⟨document.scope, document.collection, document.id⟩
      (storage.storedDocument document)
    documentsFiled := by
      intro entry member
      rcases mem_entries_insert member with rfl | old
      · exact ⟨rfl, readable⟩
      · exact mirrors.documentsFiled entry old }

theorem deleteValue (scope : StorageScope) (key : String) :
    (tables.deleteValue scope key).1 = (storage.values.lookup ⟨scope, key⟩).isSome ∧
      Mirrors codec { storage with values := storage.values.erase ⟨scope, key⟩ }
        (tables.deleteValue scope key).2 := by
  constructor
  · have found : tables.values.find (scopeKey scope, key) = _ := mirrors.values.find ⟨scope, key⟩
    rw [SqliteStorage.deleteValue, found, Option.isSome_map]
  · exact { mirrors with
      logs := mirrors.logs.of_logs_eq rfl
      values := mirrors.values.remove ⟨scope, key⟩
      valuesFiled := fun entry member =>
        mirrors.valuesFiled entry ((List.kerase_sublist _ _).subset member) }

theorem deleteDocument (scope : StorageScope) (collection id : String) :
    (tables.deleteDocument scope collection id).1 = (storage.documents.lookup ⟨scope, collection, id⟩).isSome ∧
      Mirrors codec { storage with documents := storage.documents.erase ⟨scope, collection, id⟩ }
        (tables.deleteDocument scope collection id).2 := by
  constructor
  · have found : tables.documents.find (scopeKey scope, collection, id) = _ :=
      mirrors.documents.find ⟨scope, collection, id⟩
    rw [SqliteStorage.deleteDocument, found, Option.isSome_map]
  · exact { mirrors with
      logs := mirrors.logs.of_logs_eq rfl
      documents := mirrors.documents.remove ⟨scope, collection, id⟩
      documentsFiled := fun entry member =>
        mirrors.documentsFiled entry ((List.kerase_sublist _ _).subset member) }

end

theorem replayLog_appendLogEntry (storage : InMemoryStorage Json Json) (scope : StorageScope)
    (stream : String) (payload : Json) : (storage.appendLogEntry scope stream payload).replayLog =
      withEntry storage.replayLog (storage.appendedEntry scope stream payload) := by
  funext other into
  by_cases same : other = scope ∧ into = stream
  · obtain ⟨rfl, rfl⟩ := same
    rw [storage.replayLog_appendLogEntry_self]
    simp [withEntry, InMemoryStorage.appendedEntry]
  · have apart : ¬(scope = other ∧ stream = into) := fun equal => same ⟨equal.1.symm, equal.2.symm⟩
    rw [storage.replayLog_appendLogEntry_other payload same]
    simp [withEntry, InMemoryStorage.appendedEntry, apart]

theorem appendLogEntry (mirrors : Mirrors codec storage tables) (scope : StorageScope) (stream : String)
    {payload : Json} (readable : Readable codec payload []) : (tables.appendLogEntry codec scope stream payload).1 =
        .ok (storage.appendedEntry scope stream payload) ∧ Mirrors codec (storage.appendLogEntry scope stream payload)
        (tables.appendLogEntry codec scope stream payload).2 := by
  have entry : SqliteStorage.numberedEntry scope stream payload
      (tables.nextSequence (scopeKey scope) stream) = storage.appendedEntry scope stream payload := by
    rw [mirrors.logs.nextSequence]
    rfl
  obtain ⟨logs, inserted, held⟩ :=
    mirrors.logs.insert (show (storage.appendedEntry scope stream payload).sequence = _ from rfl)
  have appended : tables.appendLogEntry codec scope stream payload =
      (.ok (storage.appendedEntry scope stream payload), { tables with logs }) := by
    simp only [SqliteStorage.appendLogEntry, entry, SqliteStorage.appended, inserted]
  rw [appended]
  refine ⟨rfl, { mirrors with logs := ?_, logsReadable := ?_ }⟩
  · rw [replayLog_appendLogEntry]
    exact held
  · intro other into stored member
    rw [replayLog_appendLogEntry] at member
    rcases List.mem_append.1 member with old | new
    · exact mirrors.logsReadable other into stored old
    · cases List.mem_singleton.1 (List.mem_of_mem_filter new)
      exact readable

/-- A readable operation is answered alike, and what it leaves is mirrored. -/
theorem step (mirrors : Mirrors codec storage tables) {operation : StorageOp} (readable : operation.Readable codec) :
    (SqliteStorage.step codec operation tables).1 = (InMemoryStorage.step operation storage).1 ∧
      Mirrors codec (InMemoryStorage.step operation storage).2 (SqliteStorage.step codec operation tables).2 := by
  cases operation with
  | putValue value =>
    refine ⟨?_, mirrors.putValue readable⟩
    simp only [SqliteStorage.step, InMemoryStorage.step, SqliteStorage.putValue, mirrors.storedValue]
    rfl
  | getValue scope key =>
    exact ⟨by simp only [SqliteStorage.step, InMemoryStorage.step, mirrors.getValue]; rfl, mirrors⟩
  | listValues scope =>
    exact ⟨by simp only [SqliteStorage.step, InMemoryStorage.step, mirrors.listValues]; rfl, mirrors⟩
  | deleteValue scope key =>
    obtain ⟨existed, kept⟩ := mirrors.deleteValue scope key
    exact ⟨congrArg (fun existed => Except.ok (StorageAnswer.deleted existed)) existed, kept⟩
  | putDocument document =>
    refine ⟨?_, mirrors.putDocument readable⟩
    simp only [SqliteStorage.step, InMemoryStorage.step, SqliteStorage.putDocument, mirrors.storedDocument]
    rfl
  | getDocument scope collection id =>
    exact ⟨by simp only [SqliteStorage.step, InMemoryStorage.step, mirrors.getDocument]; rfl, mirrors⟩
  | listDocuments scope collection =>
    exact ⟨by simp only [SqliteStorage.step, InMemoryStorage.step, mirrors.listDocuments]; rfl, mirrors⟩
  | deleteDocument scope collection id =>
    obtain ⟨existed, kept⟩ := mirrors.deleteDocument scope collection id
    exact ⟨congrArg (fun existed => Except.ok (StorageAnswer.deleted existed)) existed, kept⟩
  | appendLogEntry scope stream payload =>
    obtain ⟨appended, kept⟩ := mirrors.appendLogEntry scope stream readable
    exact ⟨congrArg (Except.map StorageAnswer.entry) appended, kept⟩
  | replayLog scope stream =>
    exact ⟨by simp only [SqliteStorage.step, InMemoryStorage.step, mirrors.replayLog]; rfl, mirrors⟩

end Mirrors

end

/--
Both backends answer a history alike when what it stores can be read back from its JSON text.

Whatever is stored, what either of them answers on a scope is what it answers without the other scopes.
-/
theorem backends_agree (codec : JsonCodec) (history : List StorageOp) :
    ((∀ operation ∈ history, operation.Readable codec) → (Run.outputs (SqliteStorage.step codec) history {}).1 =
        (Run.outputs InMemoryStorage.step history {}).1) ∧ ∀ scope : StorageScope,
      Run.observed (SqliteStorage.step codec) (·.scope = scope) history {} =
        (Run.outputs (SqliteStorage.step codec) (history.filter (·.scope = scope)) {}).1 ∧
      Run.observed InMemoryStorage.step (·.scope = scope) history {} =
        (Run.outputs InMemoryStorage.step (history.filter (·.scope = scope)) {}).1 := by
  refine ⟨fun readable => ?_, fun scope => ⟨SqliteStorage.observed_scope history scope,
    InMemoryStorage.observed_scope history scope⟩⟩
  -- The tables mirror the maps from the start, and every readable operation keeps them so.
  exact Run.outputs_of_simulation (SqliteStorage.step codec)
    (fun tables storage => Mirrors codec storage tables) (StorageOp.Readable codec)
    (fun _ _ _ allowed mirrors => mirrors.step allowed) readable Mirrors.empty

open JsonText (nestedCodec nestedArray)

def putAndGet (payload : Json) : List StorageOp :=
  [.putDocument { scope := {}, collection := "c", id := "d", payload }, .getDocument {} "c" "d"]

/-- An array of 128 levels is stored by both backends, and given back by one of them only. -/
theorem deep_payload_differs : (Run.outputs (SqliteStorage.step nestedCodec) (putAndGet (nestedArray 127)) {}).1 ≠
      (Run.outputs InMemoryStorage.step (putAndGet (nestedArray 127)) {}).1 := by
  have refused := readColumns_nestedArray 127
  intro same
  -- The second answers are an error and a document.
  have kinds := congrArg (List.map Except.toBool) same
  simp [Run.outputs, putAndGet, SqliteStorage.step, SqliteStorage.putDocument, SqliteStorage.getDocument,
    Table.find, Table.upsert, DocumentRow.primary, DocumentRow.read, documentRow, refused,
    InMemoryStorage.step, Except.toBool] at kinds

/-- An array of 127 levels is given back by both of them. -/
theorem shallow_payload_agrees : (Run.outputs (SqliteStorage.step nestedCodec) (putAndGet (nestedArray 126)) {}).1 =
      (Run.outputs InMemoryStorage.step (putAndGet (nestedArray 126)) {}).1 := by
  refine (backends_agree nestedCodec (putAndGet (nestedArray 126))).1 ?_
  have readable : Readable nestedCodec (nestedArray 126) [] := by
    rw [Readable, readColumns_nestedArray, if_pos (by decide)]
  simpa [putAndGet, StorageOp.Readable] using readable

end Codel00p
