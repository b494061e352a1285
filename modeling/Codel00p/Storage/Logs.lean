import Codel00p.Lib.Except
import Codel00p.Storage.Sqlite

/-! The rows of the logs: how they are numbered, appended, and read back. -/

namespace Codel00p

section

variable (codec : JsonCodec)

def Readable (payload : Json) (metadata : List (String × String)) : Prop :=
  readColumns codec (codec.render payload) (codec.render (metadataJson metadata)) = .ok (payload, metadata)

/-- The logs with an entry at the end of its own. -/
def withEntry (log : StorageScope → String → List (AppendLogEntry Json)) (entry : AppendLogEntry Json)
    (scope : StorageScope) (stream : String) : List (AppendLogEntry Json) :=
  log scope stream ++ [entry].filter fun entry => entry.scope = scope ∧ entry.stream = stream

structure LogsHold (tables : SqliteStorage) (log : StorageScope → String → List (AppendLogEntry Json)) :
    Prop where
  rows : ∀ scope stream, tables.logRows (scopeKey scope) stream = (log scope stream).map (logRow codec)
  numbered : ∀ scope stream, (log scope stream).map (·.sequence) = List.range' 1 (log scope stream).length
  filed : ∀ scope stream, ∀ entry ∈ log scope stream, entry.scope = scope ∧ entry.stream = stream

variable {codec}

theorem logRow_read_iff {entry : AppendLogEntry Json} :
    (logRow codec entry).read codec entry.scope entry.stream = .ok entry ↔
      Readable codec entry.payload entry.metadata := by
  simp only [LogRow.read, logRow, Readable, Except.bind_eq_ok, Except.pure_eq_ok]
  constructor
  · -- What the columns are read as is what the entry is made from.
    rintro ⟨⟨payload, metadata⟩, read, same⟩
    cases entry
    cases same
    exact read
  · exact fun readable => ⟨_, readable, rfl⟩

theorem max_range' (count : Nat) : (List.range' 1 count).max?.getD 0 = count := by
  cases count with
  | zero => rfl
  | succ count =>
    have largest : (List.range' 1 (count + 1)).max? = some (count + 1) := by
      rw [List.max?_eq_some_iff]
      constructor
      · rw [List.mem_range'_1]
        omega
      · intro other member
        rw [List.mem_range'_1] at member
        omega
    rw [largest, Option.getD_some]

namespace LogsHold

variable {tables : SqliteStorage} {log : StorageScope → String → List (AppendLogEntry Json)}

theorem empty (empty : tables.logs = {}) : LogsHold codec tables fun _ _ => [] where
  rows _ _ := by rw [SqliteStorage.logRows, empty]; rfl
  numbered _ _ := rfl
  filed _ _ _ member := nomatch member

section

variable (holds : LogsHold codec tables log)

include holds

theorem of_logs_eq {other : SqliteStorage} (same : other.logs = tables.logs) : LogsHold codec other log where
  rows scope stream := by
    rw [← holds.rows scope stream, SqliteStorage.logRows, SqliteStorage.logRows, same]
  numbered := holds.numbered
  filed := holds.filed

theorem nextSequence (scope : StorageScope) (stream : String) :
    tables.nextSequence (scopeKey scope) stream = (log scope stream).length + 1 := by
  rw [SqliteStorage.nextSequence, holds.rows, List.map_map]
  have same : (LogRow.sequence ∘ logRow codec) = fun entry => entry.sequence := rfl
  rw [same, holds.numbered, max_range']

theorem sequence_free {entry : AppendLogEntry Json} (past : (log entry.scope entry.stream).length < entry.sequence) :
    (logRow codec entry).primary ∉ tables.logs.rows.map LogRow.primary := by
  intro taken
  obtain ⟨row, member, same⟩ := List.mem_map.1 taken
  -- The row would be one of the log, whose numbers end before.
  obtain ⟨ofScope, ofStream, number⟩ : row.scope = scopeKey entry.scope ∧ row.stream = entry.stream ∧
      row.sequence = entry.sequence := by
    simpa [LogRow.primary, logRow] using same
  have own : row ∈ tables.logRows (scopeKey entry.scope) entry.stream :=
    List.mem_filter.2 ⟨member, by simp [ofScope, ofStream]⟩
  rw [holds.rows] at own
  obtain ⟨stored, inside, rfl⟩ := List.mem_map.1 own
  have listed : stored.sequence ∈ List.range' 1 (log entry.scope entry.stream).length := by
    rw [← holds.numbered]
    exact List.mem_map_of_mem inside
  have below := (List.mem_range'_1.1 listed).2
  have number : stored.sequence = entry.sequence := number
  omega

theorem insert {entry : AppendLogEntry Json} (next : entry.sequence = (log entry.scope entry.stream).length + 1) :
    ∃ logs, tables.insertLogRow (logRow codec entry) = .ok { tables with logs } ∧
      LogsHold codec { tables with logs } (withEntry log entry) := by
  have free : (logRow codec entry).primary ∉ tables.logs.rows.map LogRow.primary := holds.sequence_free (by omega)
  obtain ⟨logs, inserted, rows⟩ := Table.insert_fresh free
  refine ⟨logs, by simp only [SqliteStorage.insertLogRow, inserted], ?_, ?_, ?_⟩
  · -- The row is selected for its own log, and for no other.
    intro scope stream
    simp only [SqliteStorage.logRows, Table.select, rows, List.filter_append, withEntry, List.map_append]
    congr 1
    · exact holds.rows scope stream
    · simp [List.filter_cons, logRow, scopeKey_injective.eq_iff, apply_ite]
  · intro scope stream
    by_cases own : entry.scope = scope ∧ entry.stream = stream
    · obtain ⟨rfl, rfl⟩ := own
      simp [withEntry, holds.numbered, List.range'_concat, next, Nat.add_comm]
    · simp [withEntry, own, holds.numbered]
  · intro scope stream stored member
    rcases List.mem_append.1 member with old | new
    · exact holds.filed scope stream stored old
    · simpa using (List.mem_filter.1 new).2

theorem replayLog_iff (scope : StorageScope) (stream : String) :
    tables.replayLog codec scope stream = .ok (log scope stream) ↔
      ∀ entry ∈ log scope stream, Readable codec entry.payload entry.metadata := by
  -- The rows were inserted in the order of their numbers, so they are sorted already.
  have sorted : ((log scope stream).map (logRow codec)).Pairwise
      fun left right => left.sequence < right.sequence := by
    have numbers : ((log scope stream).map (·.sequence)).Pairwise (· < ·) := by
      rw [holds.numbered]
      exact List.pairwise_lt_range'
    exact List.pairwise_map.2 (List.pairwise_map.1 numbers)
  rw [SqliteStorage.replayLog, holds.rows, sortOn_of_pairwise sorted, Except.mapM_map_eq_ok]
  refine forall₂_congr fun entry member => ?_
  obtain ⟨rfl, rfl⟩ := holds.filed scope stream entry member
  exact logRow_read_iff

end

end LogsHold

end

end Codel00p
