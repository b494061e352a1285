import Codel00p.Lib.Run
import Codel00p.Storage.Sqlite

/-! What the operations on one scope are answered does not depend on the other scopes. -/

namespace Codel00p

open Table (ofMap lookup_eq_find find_congr ofMap_insert select_upsert ofMap_erase select_remove select_upsert_congr select_remove_congr)

namespace InMemoryStorage

def view (scope : StorageScope) (storage : InMemoryStorage Json Json) :
    List (Sigma fun _ : ValueKey => StorageValue Json) ×
      List (Sigma fun _ : DocumentKey => StorageDocument Json) × (String → List (AppendLogEntry Json)) :=
  ((ofMap storage.values).select fun entry => entry.1.scope = scope,
    (ofMap storage.documents).select fun entry => entry.1.scope = scope,
    storage.replayLog scope)

variable {storage other : InMemoryStorage Json Json} {scope : StorageScope}

theorem lookup_value_of_view (same : storage.view scope = other.view scope) (key : String) :
    storage.values.lookup ⟨scope, key⟩ = other.values.lookup ⟨scope, key⟩ := by
  rw [lookup_eq_find, lookup_eq_find]
  congr 1
  refine find_congr (fun entry keyed => ?_) (Prod.mk.inj same).1
  simp [keyed]

theorem lookup_document_of_view (same : storage.view scope = other.view scope) (collection id : String) :
    storage.documents.lookup ⟨scope, collection, id⟩ = other.documents.lookup ⟨scope, collection, id⟩ := by
  rw [lookup_eq_find, lookup_eq_find]
  congr 1
  refine find_congr (fun entry keyed => ?_) (Prod.mk.inj (Prod.mk.inj same).2).1
  simp [keyed]

theorem listValues_eq (storage : InMemoryStorage Json Json) (scope : StorageScope) :
    storage.listValues scope = sortOn StorageValue.key ((storage.view scope).1.map Sigma.snd) := rfl

theorem listDocuments_eq (storage : InMemoryStorage Json Json) (scope : StorageScope) (collection : String) :
    storage.listDocuments scope collection = sortOn StorageDocument.id
      (((storage.view scope).2.1.filter fun entry => entry.1.collection = collection).map Sigma.snd) := by
  have selected := (ofMap storage.documents).select_and (fun entry => entry.1.scope = scope)
    fun entry => entry.1.collection = collection
  simp only [view, ← selected]
  rfl

theorem view_step_other {operation : StorageOp} (apart : operation.scope ≠ scope) :
    (InMemoryStorage.step operation storage).2.view scope = storage.view scope := by
  cases operation with
  | putValue value =>
    refine Prod.ext ?_ rfl
    simp only [step, view, putValue, ofMap_insert]
    exact select_upsert fun entry keyed => by rw [keyed]; exact decide_eq_false apart
  | deleteValue target key =>
    refine Prod.ext ?_ rfl
    simp only [step, view, ofMap_erase]
    exact select_remove fun entry keyed => by rw [keyed]; exact decide_eq_false apart
  | putDocument document =>
    refine Prod.ext rfl (Prod.ext ?_ rfl)
    simp only [step, view, putDocument_eq, ofMap_insert]
    exact select_upsert fun entry keyed => by rw [keyed]; exact decide_eq_false apart
  | deleteDocument target collection id =>
    refine Prod.ext rfl (Prod.ext ?_ rfl)
    simp only [step, view, deleteDocument, ofMap_erase]
    exact select_remove fun entry keyed => by rw [keyed]; exact decide_eq_false apart
  | appendLogEntry target stream payload =>
    refine Prod.ext rfl (Prod.ext rfl (funext fun into => ?_))
    exact storage.replayLog_appendLogEntry_other payload fun equal => apart equal.1.symm
  | getValue | listValues | getDocument | listDocuments | replayLog => rfl

/-- An operation reads and changes what belongs to its scope. -/
theorem step_of_view {operation : StorageOp} (same : storage.view operation.scope = other.view operation.scope) :
    (InMemoryStorage.step operation storage).1 = (InMemoryStorage.step operation other).1 ∧
      (InMemoryStorage.step operation storage).2.view operation.scope =
        (InMemoryStorage.step operation other).2.view operation.scope := by
  obtain ⟨values, rest⟩ := Prod.mk.inj same
  obtain ⟨documents, logs⟩ := Prod.mk.inj rest
  cases operation with
  | putValue value =>
    -- The versions that are there agree, so the entries that are put are the same.
    have stored : storage.storedValue value = other.storedValue value := by
      have found : storage.values.lookup ⟨value.scope, value.key⟩ = _ := lookup_value_of_view same value.key
      rw [storedValue, storedValue, found]
      rfl
    refine ⟨congrArg (fun stored => Except.ok (StorageAnswer.value stored)) stored, Prod.ext ?_ rest⟩
    simp only [step, view, putValue, ofMap_insert, stored]
    exact select_upsert_congr values
  | getValue scope key =>
    have found := lookup_value_of_view same key
    exact ⟨congrArg (fun found => Except.ok (StorageAnswer.foundValue found)) found, same⟩
  | listValues scope =>
    refine ⟨?_, same⟩
    simp only [step, listValues_eq]
    rw [show storage.view scope = other.view scope from same]
  | deleteValue scope key =>
    have found := lookup_value_of_view same key
    refine ⟨congrArg (fun found => Except.ok (StorageAnswer.deleted (Option.isSome found))) found, Prod.ext ?_ rest⟩
    simp only [step, view, ofMap_erase]
    exact select_remove_congr values
  | putDocument document =>
    have stored : storage.storedDocument document = other.storedDocument document := by
      have found : storage.documents.lookup ⟨document.scope, document.collection, document.id⟩ = _ :=
        lookup_document_of_view same document.collection document.id
      rw [storedDocument, storedDocument, found]
      rfl
    refine ⟨congrArg (fun stored => Except.ok (StorageAnswer.document stored)) stored,
      Prod.ext values (Prod.ext ?_ logs)⟩
    simp only [step, view, putDocument_eq, ofMap_insert, stored]
    exact select_upsert_congr documents
  | getDocument scope collection id =>
    have found := lookup_document_of_view same collection id
    exact ⟨congrArg (fun found => Except.ok (StorageAnswer.foundDocument found)) found, same⟩
  | listDocuments scope collection =>
    refine ⟨?_, same⟩
    simp only [step, listDocuments_eq]
    rw [show storage.view scope = other.view scope from same]
  | deleteDocument scope collection id =>
    have found := lookup_document_of_view same collection id
    refine ⟨congrArg (fun found => Except.ok (StorageAnswer.deleted (Option.isSome found))) found,
      Prod.ext values (Prod.ext ?_ logs)⟩
    simp only [step, view, deleteDocument, ofMap_erase]
    exact select_remove_congr documents
  | appendLogEntry scope stream payload =>
    have log : storage.replayLog scope stream = other.replayLog scope stream := congrFun logs stream
    have entry : storage.appendedEntry scope stream payload = other.appendedEntry scope stream payload := by
      rw [appendedEntry, appendedEntry, log]
    refine ⟨congrArg (fun entry => Except.ok (StorageAnswer.entry entry)) entry,
      Prod.ext values (Prod.ext documents (funext fun into => ?_))⟩
    -- The log that is appended to gets the same entry, and the others stay.
    change (storage.appendLogEntry scope stream payload).replayLog scope into =
      (other.appendLogEntry scope stream payload).replayLog scope into
    by_cases own : into = stream
    · rw [own, replayLog_appendLogEntry_self, replayLog_appendLogEntry_self, log]
    · rw [replayLog_appendLogEntry_ne _ _ _ own, replayLog_appendLogEntry_ne _ _ _ own]
      exact congrFun logs into
  | replayLog scope stream =>
    exact ⟨congrArg (fun log : String → List (AppendLogEntry Json) =>
      Except.ok (StorageAnswer.entries (log stream))) logs, same⟩

theorem observed_scope (history : List StorageOp) (scope : StorageScope) :
    Run.observed InMemoryStorage.step (·.scope = scope) history {} =
      (Run.outputs InMemoryStorage.step (history.filter (·.scope = scope)) {}).1 := by
  refine Run.observed_of_view _ (view scope) _ (fun operation storage foreign => ?_)
    (fun operation storage other own same => ?_) history _
  · exact view_step_other (of_decide_eq_false foreign)
  · obtain rfl : operation.scope = scope := of_decide_eq_true own
    exact step_of_view same

end InMemoryStorage

section

variable (codec : JsonCodec)

namespace SqliteStorage

/-- The rows that belong to a scope. -/
def view (scope : StorageScope) (tables : SqliteStorage) :
    List ValueRow × List DocumentRow × List LogRow :=
  (tables.values.select fun row => row.scope = scopeKey scope,
    tables.documents.select fun row => row.scope = scopeKey scope,
    tables.logs.select fun row => row.scope = scopeKey scope)

variable {codec} {tables other : SqliteStorage} {scope : StorageScope}

theorem find_value_of_view (same : tables.view scope = other.view scope) (key : String) :
    tables.values.find (scopeKey scope, key) = other.values.find (scopeKey scope, key) :=
  find_congr (fun _ keyed => decide_eq_true (Prod.mk.inj keyed).1) (Prod.mk.inj same).1

theorem find_document_of_view (same : tables.view scope = other.view scope) (collection id : String) :
    tables.documents.find (scopeKey scope, collection, id) = other.documents.find (scopeKey scope, collection, id) :=
  find_congr (fun _ keyed => decide_eq_true (Prod.mk.inj keyed).1) (Prod.mk.inj (Prod.mk.inj same).2).1

theorem logRows_eq (tables : SqliteStorage) (scope : StorageScope) (stream : String) :
    tables.logRows (scopeKey scope) stream = (tables.view scope).2.2.filter fun row => row.stream = stream :=
  tables.logs.select_and _ _

theorem listDocuments_eq (tables : SqliteStorage) (scope : StorageScope) (collection : String) :
    tables.listDocuments codec scope collection =
      (sortOn DocumentRow.id ((tables.view scope).2.1.filter fun row => row.collection = collection)).mapM
        fun row => row.read codec scope collection row.id := by
  rw [listDocuments, tables.documents.select_and (fun row => row.scope = scopeKey scope)]
  rfl

theorem appended_of_view (codec : JsonCodec) (same : tables.view scope = other.view scope) (entry : AppendLogEntry Json)
    (own : entry.scope = scope) : (appended codec tables entry).1 = (appended codec other entry).1 ∧
      (appended codec tables entry).2.view scope = (appended codec other entry).2.view scope := by
  obtain ⟨values, rest⟩ := Prod.mk.inj same
  obtain ⟨documents, logs⟩ := Prod.mk.inj rest
  have covers : ∀ row : LogRow, row.primary = (logRow codec entry).primary →
      decide (row.scope = scopeKey scope) = true := by
    intro row keyed
    rw [decide_eq_true_eq, ← own]
    exact (Prod.mk.inj keyed).1
  have inserted : (tables.logs.insert (logRow codec entry)).map (·.select fun row => row.scope = scopeKey scope) =
      (other.logs.insert (logRow codec entry)).map (·.select fun row => row.scope = scopeKey scope) := by
    rw [Table.map_select_insert covers, Table.map_select_insert covers, logs]
  simp only [appended, insertLogRow]
  -- The two insertions fail together, or leave the same rows to see.
  cases here : tables.logs.insert (logRow codec entry) <;>
    cases there : other.logs.insert (logRow codec entry) <;>
    simp only [here, there, Option.map_none, Option.map_some, reduceCtorEq, Option.some.injEq] at inserted
  · exact ⟨rfl, same⟩
  · exact ⟨rfl, Prod.ext values (Prod.ext documents inserted)⟩

theorem view_step_other {operation : StorageOp} (apart : operation.scope ≠ scope) :
    (SqliteStorage.step codec operation tables).2.view scope = tables.view scope := by
  have keys : scopeKey operation.scope ≠ scopeKey scope := scopeKey_injective.ne apart
  cases operation with
  | putValue value =>
    refine Prod.ext ?_ rfl
    simp only [step, putValue, Prod.map_snd, id, view]
    exact select_upsert fun row keyed =>
      decide_eq_false fun equal => keys ((Prod.mk.inj keyed).1.symm.trans equal)
  | deleteValue target key =>
    refine Prod.ext (select_remove fun row keyed => ?_) rfl
    exact decide_eq_false fun equal => keys ((Prod.mk.inj keyed).1.symm.trans equal)
  | putDocument document =>
    refine Prod.ext rfl (Prod.ext ?_ rfl)
    simp only [step, putDocument, Prod.map_snd, id, view]
    exact select_upsert fun row keyed =>
      decide_eq_false fun equal => keys ((Prod.mk.inj keyed).1.symm.trans equal)
  | deleteDocument target collection id =>
    refine Prod.ext rfl (Prod.ext (select_remove fun row keyed => ?_) rfl)
    exact decide_eq_false fun equal => keys ((Prod.mk.inj keyed).1.symm.trans equal)
  | appendLogEntry target stream payload =>
    simp only [step, appendLogEntry, appended, insertLogRow]
    cases inserted : tables.logs.insert _ with
    | none => rfl
    | some logs =>
      refine Prod.ext rfl (Prod.ext rfl ?_)
      exact Table.select_insert inserted (decide_eq_false keys)
  | getValue | listValues | getDocument | listDocuments | replayLog => rfl

/-- An operation reads and changes the rows of its scope. -/
theorem step_of_view {operation : StorageOp} (same : tables.view operation.scope = other.view operation.scope) :
    (SqliteStorage.step codec operation tables).1 = (SqliteStorage.step codec operation other).1 ∧
      (SqliteStorage.step codec operation tables).2.view operation.scope =
        (SqliteStorage.step codec operation other).2.view operation.scope := by
  obtain ⟨values, rest⟩ := Prod.mk.inj same
  obtain ⟨documents, logs⟩ := Prod.mk.inj rest
  cases operation with
  | putValue value =>
    -- The versions that are read agree, so the rows that are written are the same.
    have found : tables.values.find (scopeKey value.scope, value.key) = _ := find_value_of_view same value.key
    simp only [step, putValue, valueVersion, found]
    exact ⟨rfl, Prod.ext (select_upsert_congr values) rest⟩
  | getValue scope key =>
    have found : tables.values.find (scopeKey scope, key) = _ := find_value_of_view same key
    refine ⟨?_, same⟩
    simp only [step, getValue, found]
    rfl
  | listValues scope =>
    exact ⟨congrArg (fun rows : List ValueRow => StorageAnswer.values <$>
      (sortOn ValueRow.key rows).mapM fun row => row.read codec scope row.key) values, same⟩
  | deleteValue scope key =>
    have found : tables.values.find (scopeKey scope, key) = _ := find_value_of_view same key
    simp only [step, deleteValue, found]
    exact ⟨rfl, Prod.ext (select_remove_congr values) rest⟩
  | putDocument document =>
    have found : tables.documents.find (scopeKey document.scope, document.collection, document.id) = _ :=
      find_document_of_view same document.collection document.id
    simp only [step, putDocument, documentVersion, found]
    exact ⟨rfl, Prod.ext values (Prod.ext (select_upsert_congr documents) logs)⟩
  | getDocument scope collection id =>
    have found : tables.documents.find (scopeKey scope, collection, id) = _ :=
      find_document_of_view same collection id
    refine ⟨?_, same⟩
    simp only [step, getDocument, found]
    rfl
  | listDocuments scope collection =>
    refine ⟨?_, same⟩
    simp only [step, listDocuments_eq]
    rw [show tables.view scope = other.view scope from same]
  | deleteDocument scope collection id =>
    have found : tables.documents.find (scopeKey scope, collection, id) = _ :=
      find_document_of_view same collection id
    simp only [step, deleteDocument, found]
    exact ⟨rfl, Prod.ext values (Prod.ext (select_remove_congr documents) logs)⟩
  | appendLogEntry scope stream payload =>
    -- The number that is read agrees, and so does whether the row can be inserted.
    have number : tables.nextSequence (scopeKey scope) stream = other.nextSequence (scopeKey scope) stream := by
      rw [nextSequence, nextSequence, logRows_eq, logRows_eq,
        show tables.view scope = other.view scope from same]
    simp only [step, appendLogEntry, number]
    have inserted := appended_of_view codec same
      (numberedEntry scope stream payload (other.nextSequence (scopeKey scope) stream)) rfl
    exact ⟨congrArg (Except.map StorageAnswer.entry) inserted.1, inserted.2⟩
  | replayLog scope stream =>
    refine ⟨?_, same⟩
    simp only [step, replayLog, logRows_eq]
    rw [show tables.view scope = other.view scope from same]

theorem observed_scope (history : List StorageOp) (scope : StorageScope) :
    Run.observed (SqliteStorage.step codec) (·.scope = scope) history {} =
      (Run.outputs (SqliteStorage.step codec) (history.filter (·.scope = scope)) {}).1 := by
  refine Run.observed_of_view _ (view scope) _ (fun operation tables foreign => ?_)
    (fun operation tables other own same => ?_) history _
  · exact view_step_other (of_decide_eq_false foreign)
  · obtain rfl : operation.scope = scope := of_decide_eq_true own
    exact step_of_view same

end SqliteStorage

end

end Codel00p
