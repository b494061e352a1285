import Codel00p.Lib.Table
import Codel00p.Memory.Index
import Mathlib.Data.Prod.Lex
import Mathlib.Data.String.Basic

/-! Retrieval by relevance, and what both retrievals let through. -/

namespace Codel00p

structure MemoryRetrievalQuery where
  project : ProjectRef
  query : String
  kind : Option MemoryKind := none
  sensitivity : Option MemorySensitivity := none
  visibility : Option MemoryVisibility := none
  tag : Option String := none
  minScore : Nat := 1
  limit : Option Nat := none

structure RankedMemory where
  record : MemoryRecord
  score : Nat

def MemoryRetrievalQuery.filters (query : MemoryRetrievalQuery) : MemoryQuery :=
  { project := query.project, kind := query.kind, sensitivity := query.sensitivity,
    visibility := query.visibility, tag := query.tag }

/-- The higher score comes first, and among equals the smaller id. -/
def RankedMemory.rank (ranked : RankedMemory) : Lex (Natᵒᵈ × String) :=
  toLex (OrderDual.toDual ranked.score, ranked.record.entry.id)

namespace MemoryStore

variable (scope : StorageScope)

def rankedMatches (ranker : String → List (String × String) → Except MemoryError (List Nat))
    (query : MemoryRetrievalQuery) (storage : MemoryStorage) : Except MemoryError (List RankedMemory) := do
  let filtered := (← records scope storage).filter fun record => query.filters.keeps id record.entry
  let scores ← ranker query.query (filtered.map fun record => (record.entry.id, record.entry.content))
  if scores.length ≠ filtered.length then
    throw (.ranking ("ranking provider returned " ++ toString scores.length ++ " scores for "
      ++ toString filtered.length ++ " documents"))
  let ranked := ((filtered.zip scores).filter fun scored => query.minScore ≤ scored.2).map fun scored =>
    { record := scored.1, score := scored.2 : RankedMemory }
  return sortOn RankedMemory.rank ranked

def retrieveRanked (ranker : String → List (String × String) → Except MemoryError (List Nat))
    (query : MemoryRetrievalQuery) (storage : MemoryStorage) : Except MemoryError (List RankedMemory) := do
  return truncate query.limit (← rankedMatches scope ranker query storage)

end MemoryStore

/-- What a query lets through, whatever else it asks for. -/
structure MemoryQuery.Admits (query : MemoryQuery) (entry : MemoryEntry) : Prop where
  approved : entry.status = .approved
  project : entry.project.id = query.project.id
  sensitivity : ∀ sensitivity ∈ query.sensitivity, entry.sensitivity = sensitivity
  unasked : query.sensitivity = none → entry.sensitivity ≠ .sensitive
  visibility : ∀ visibility ∈ query.visibility, entry.visibility.rank ≤ visibility.rank

theorem MemoryQuery.admits_of_keeps {toLowercase : String → String} {query : MemoryQuery} {entry : MemoryEntry}
    (kept : query.keeps toLowercase entry = true) : query.Admits entry := by
  simp only [keeps, Bool.and_eq_true, beq_iff_eq, passes_iff, decide_eq_true_eq] at kept
  obtain ⟨⟨⟨⟨⟨⟨approved, project⟩, sensitivity⟩, visibility⟩, -⟩, -⟩, -⟩ := kept
  refine ⟨approved, project, ?_, ?_, visibility⟩
  · intro asked given
    rw [Option.mem_def.1 given] at sensitivity
    simpa using sensitivity
  · intro unasked
    rw [unasked] at sensitivity
    simpa using sensitivity

theorem mem_truncate {α : Type} {limit : Option Nat} {items : List α} {item : α} (member : item ∈ truncate limit items) :
    item ∈ items := by
  cases limit with
  | none => exact member
  | some limit => exact List.mem_of_mem_take member

theorem MemoryStore.mem_retrieve {scope : StorageScope} {toLowercase : String → String} {query : MemoryQuery}
    {storage : MemoryStorage} {retrieved : List RetrievedMemory}
    (found : retrieve scope toLowercase query storage = .ok retrieved) {memory : RetrievedMemory}
    (member : memory ∈ retrieved) : query.keeps toLowercase memory.record.entry = true := by
  obtain ⟨records, -, found⟩ := Except.bind_eq_ok.1 found
  rw [← Except.ok.inj found] at member
  obtain ⟨record, kept, rfl⟩ := List.mem_map.1 ((List.mergeSort_perm _ _).mem_iff.1 (mem_truncate member))
  exact (List.mem_filter.1 kept).2

theorem MemoryStore.mem_retrieveRanked {scope : StorageScope}
    {ranker : String → List (String × String) → Except MemoryError (List Nat)} {query : MemoryRetrievalQuery}
    {storage : MemoryStorage} {ranked : List RankedMemory}
    (found : retrieveRanked scope ranker query storage = .ok ranked) (toLowercase : String → String) :
    ∃ plain, retrieve scope toLowercase query.filters storage = .ok plain
      ∧ ∀ memory ∈ ranked, ∃ retrieved ∈ plain, retrieved.record = memory.record := by
  obtain ⟨_, ordered, found⟩ := Except.bind_eq_ok.1 found
  obtain ⟨records, read, ordered⟩ := Except.bind_eq_ok.1 ordered
  obtain ⟨scores, -, ordered⟩ := Except.bind_eq_ok.1 ordered
  obtain ⟨-, ordered⟩ := Except.check_eq_ok.1 ordered
  refine ⟨_, by rw [retrieve, read]; rfl, fun memory member => ?_⟩
  rw [← Except.pure_eq_ok.1 found, ← Except.pure_eq_ok.1 ordered] at member
  obtain ⟨scored, kept, rfl⟩ := List.mem_map.1 ((sortOn_perm _ _).mem_iff.1 (mem_truncate member))
  obtain ⟨listed, passes⟩ := List.mem_filter.1 (List.of_mem_zip (List.mem_of_mem_filter kept)).1
  refine ⟨⟨scored.1, _⟩, (List.mergeSort_perm _ _).mem_iff.2 (List.mem_map_of_mem (List.mem_filter.2 ⟨listed, ?_⟩)), rfl⟩
  exact passes

/-- Both retrievals return approved memories of the project that pass the filters, the one by relevance returns
no other than the plain one, and a limit cuts the unlimited result. -/
theorem retrieval_gated (scope : StorageScope) (toLowercase : String → String)
    (ranker : String → List (String × String) → Except MemoryError (List Nat)) (storage : MemoryStorage) :
    (∀ query retrieved, MemoryStore.retrieve scope toLowercase query storage = .ok retrieved →
        ∀ memory ∈ retrieved, query.Admits memory.record.entry)
      ∧ (∀ query ranked, MemoryStore.retrieveRanked scope ranker query storage = .ok ranked →
        (∀ memory ∈ ranked, query.filters.Admits memory.record.entry)
          ∧ ∃ plain, MemoryStore.retrieve scope toLowercase query.filters storage = .ok plain
            ∧ ∀ memory ∈ ranked, ∃ retrieved ∈ plain, retrieved.record = memory.record)
      ∧ (∀ (query : MemoryQuery) limit, MemoryStore.retrieve scope toLowercase { query with limit := some limit } storage
        = (MemoryStore.retrieve scope toLowercase { query with limit := none } storage).map (List.take limit))
      ∧ ∀ (query : MemoryRetrievalQuery) limit, MemoryStore.retrieveRanked scope ranker { query with limit := some limit } storage
        = (MemoryStore.retrieveRanked scope ranker { query with limit := none } storage).map (List.take limit) := by
  refine ⟨fun query retrieved found memory member => ?_, fun query ranked found => ?_, fun query limit => ?_,
    fun query limit => ?_⟩
  · exact MemoryQuery.admits_of_keeps (MemoryStore.mem_retrieve found member)
  · obtain ⟨plain, retrieved, among⟩ := MemoryStore.mem_retrieveRanked found toLowercase
    refine ⟨fun memory member => ?_, plain, retrieved, among⟩
    obtain ⟨same, listed, record⟩ := among memory member
    exact record ▸ MemoryQuery.admits_of_keeps (MemoryStore.mem_retrieve retrieved listed)
  · simp only [MemoryStore.retrieve]
    cases MemoryStore.records scope storage <;> rfl
  · have same : MemoryStore.rankedMatches scope ranker { query with limit := some limit } storage
        = MemoryStore.rankedMatches scope ranker { query with limit := none } storage := rfl
    rw [MemoryStore.retrieveRanked, MemoryStore.retrieveRanked, same]
    cases MemoryStore.rankedMatches scope ranker { query with limit := none } storage <;> rfl

end Codel00p
