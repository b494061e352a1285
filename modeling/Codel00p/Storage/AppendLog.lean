import Codel00p.Lib.Run
import Codel00p.Storage.Logs

/-! Appends of several connections to one database: each is a transaction that takes the lock for writing. -/

namespace Codel00p

inductive AppendTransaction where
  /-- It has the lock. -/
  | begun (scope : StorageScope) (stream : String) (payload : Json)
  /-- It has read the number of its entry. -/
  | numbered (entry : AppendLogEntry Json)
  /-- It has inserted its entry into tables that only it sees. -/
  | inserted (entry : AppendLogEntry Json) (working : SqliteStorage)

inductive AppendStep (κ : Type) where
  | beginImmediate (connection : κ) (scope : StorageScope) (stream : String) (payload : Json)
  | select (connection : κ)
  | insert (connection : κ)
  | commit (connection : κ)
  /-- Give up, which is what any failure in between comes down to. -/
  | rollback (connection : κ)

structure AppendRun (κ : Type) where
  committed : SqliteStorage
  holder : Option (κ × AppendTransaction) := none
  returned : List (AppendLogEntry Json) := []

def logOf (entries : List (AppendLogEntry Json)) (scope : StorageScope) (stream : String) :
    List (AppendLogEntry Json) :=
  entries.filter fun entry => entry.scope = scope ∧ entry.stream = stream

namespace AppendRun

variable {κ : Type}

/-- A database without logs. -/
def opened (values : Table ValueRow.primary) (documents : Table DocumentRow.primary) : AppendRun κ :=
  { committed := { values, documents } }

def entries (run : AppendRun κ) : StorageScope → String → List (AppendLogEntry Json) := logOf run.returned

variable [DecidableEq κ] (codec : JsonCodec)

def held (run : AppendRun κ) (connection : κ) : Option AppendTransaction :=
  run.holder.bind fun holder => if holder.1 = connection then some holder.2 else none

/-- Carry out a statement; one that is not due changes nothing. -/
def step (run : AppendRun κ) : AppendStep κ → AppendRun κ
  | .beginImmediate connection scope stream payload =>
    match run.holder with
    | none => { run with holder := some (connection, .begun scope stream payload) }
    -- The lock is taken, so this append fails or tries again later.
    | some _ => run
  | .select connection =>
    match run.held connection with
    | some (.begun scope stream payload) =>
      let sequence := run.committed.nextSequence (scopeKey scope) stream
      { run with
        holder := some (connection, .numbered (SqliteStorage.numberedEntry scope stream payload sequence)) }
    | _ => run
  | .insert connection =>
    match run.held connection with
    | some (.numbered entry) =>
      match run.committed.insertLogRow (logRow codec entry) with
      | .ok working => { run with holder := some (connection, .inserted entry working) }
      | .error _ => { run with holder := none }
    | _ => run
  | .commit connection =>
    match run.held connection with
    | some (.inserted entry working) =>
      { committed := working, holder := none, returned := run.returned ++ [entry] }
    | _ => run
  | .rollback connection =>
    match run.held connection with
    | some _ => { run with holder := none }
    | none => run

def Pending (run : AppendRun κ) : AppendTransaction → Prop
  | .begun _ _ _ => True
  | .numbered entry => entry.sequence = (run.entries entry.scope entry.stream).length + 1
  | .inserted entry working => LogsHold codec working (withEntry run.entries entry)

structure Serial (run : AppendRun κ) : Prop where
  logs : LogsHold codec run.committed run.entries
  pending : ∀ owner transaction, run.holder = some (owner, transaction) → run.Pending codec transaction

variable {codec} {run : AppendRun κ}

omit [DecidableEq κ] in
theorem opened_serial (values : Table ValueRow.primary) (documents : Table DocumentRow.primary) :
    (opened values documents : AppendRun κ).Serial codec where
  logs := .empty rfl
  pending _ _ taken := nomatch taken

theorem holder_of_held {connection : κ} {transaction : AppendTransaction}
    (held : run.held connection = some transaction) : run.holder = some (connection, transaction) := by
  obtain ⟨⟨owner, current⟩, taken, same⟩ := Option.bind_eq_some_iff.1 held
  by_cases own : owner = connection
  · rw [if_pos own, Option.some.injEq] at same
    cases own
    cases same
    exact taken
  · rw [if_neg own] at same
    exact nomatch same

omit [DecidableEq κ] in
theorem Serial.hold (serial : run.Serial codec) {connection : κ} {transaction : AppendTransaction}
    (pending : run.Pending codec transaction) :
    ({ run with holder := some (connection, transaction) } : AppendRun κ).Serial codec where
  logs := serial.logs
  pending owner current taken := by
    cases taken
    cases transaction <;> exact pending

omit [DecidableEq κ] in
theorem Serial.release (serial : run.Serial codec) : ({ run with holder := none } : AppendRun κ).Serial codec where
  logs := serial.logs
  pending _ _ taken := nomatch taken

/-- Every statement keeps the committed logs in order. -/
theorem Serial.step (serial : run.Serial codec) (statement : AppendStep κ) :
    (run.step codec statement).Serial codec := by
  cases statement with
  | beginImmediate connection scope stream payload =>
    simp only [AppendRun.step]
    split
    · exact serial.hold trivial
    · exact serial
  | select connection =>
    simp only [AppendRun.step]
    split
    · -- No other append commits before this one, so the number stays the next one.
      exact serial.hold (serial.logs.nextSequence _ _)
    · exact serial
  | insert connection =>
    simp only [AppendRun.step]
    split
    · rename_i entry held
      have next := serial.pending _ _ (holder_of_held held)
      obtain ⟨logs, inserted, hold⟩ := serial.logs.insert next
      rw [inserted]
      exact serial.hold hold
    · exact serial
  | commit connection =>
    simp only [AppendRun.step]
    split
    · rename_i entry working held
      have hold : LogsHold codec working (withEntry run.entries entry) := serial.pending _ _ (holder_of_held held)
      refine { logs := ?_, pending := fun _ _ taken => by cases taken }
      have entries : logOf (run.returned ++ [entry]) = withEntry run.entries entry := by
        funext scope stream
        rw [logOf, List.filter_append]
        rfl
      rw [AppendRun.entries, entries]
      exact hold
    · exact serial
  | rollback connection =>
    simp only [AppendRun.step]
    split
    · exact serial.release
    · exact serial

/-- The statements of one append, without those of others in between. -/
def append (connection : κ) (scope : StorageScope) (stream : String) (payload : Json) : List (AppendStep κ) :=
  [.beginImmediate connection scope stream payload, .select connection, .insert connection, .commit connection]

theorem Serial.append (serial : run.Serial codec) (free : run.holder = none) (connection : κ)
    (scope : StorageScope) (stream : String) (payload : Json) :
    let entry := SqliteStorage.numberedEntry scope stream payload ((run.entries scope stream).length + 1)
    run.committed.appendLogEntry codec scope stream payload =
      (.ok entry, ((AppendRun.append connection scope stream payload).foldl (AppendRun.step codec) run).committed) ∧
    ((AppendRun.append connection scope stream payload).foldl (AppendRun.step codec) run).returned =
      run.returned ++ [entry] := by
  intro entry
  obtain ⟨logs, inserted, -⟩ := serial.logs.insert (show entry.sequence = _ from rfl)
  have number := serial.logs.nextSequence scope stream
  simp only [SqliteStorage.appendLogEntry, SqliteStorage.appended, AppendRun.append, List.foldl_cons,
    List.foldl_nil, AppendRun.step, free, held, Option.bind_some, if_true, number]
  rw [inserted]
  simp [entry]

end AppendRun

/--
Appends to a log are numbered from one on in the order they return.

A replay between any two statements returns them in this order, just when all of them can be read back.
-/
theorem append_log_linear {κ : Type} [DecidableEq κ] (codec : JsonCodec) (values : Table ValueRow.primary)
    (documents : Table DocumentRow.primary) (statements : List (AppendStep κ)) (scope : StorageScope)
    (stream : String) :
    let run := statements.foldl (AppendRun.step codec) (AppendRun.opened values documents)
    (run.entries scope stream).map (·.sequence) = List.range' 1 (run.entries scope stream).length ∧
      (run.committed.replayLog codec scope stream = .ok (run.entries scope stream) ↔
        ∀ entry ∈ run.entries scope stream, Readable codec entry.payload entry.metadata) := by
  intro run
  have serial : run.Serial codec := Run.invariant (AppendRun.step codec) (AppendRun.Serial codec)
    (fun _ statement serial => serial.step statement) (AppendRun.opened_serial values documents) statements
  exact ⟨serial.logs.numbered scope stream, serial.logs.replayLog_iff scope stream⟩

open JsonText (nestedCodec nestedArray)

/-- An entry that is an array of 128 levels is appended, and its log cannot be replayed. -/
theorem deep_entry_not_replayed :
    let run := (AppendRun.append () {} "s" (nestedArray 127)).foldl (AppendRun.step nestedCodec)
      (AppendRun.opened {} {})
    run.committed.replayLog nestedCodec {} "s" ≠ .ok (run.entries {} "s") := by
  intro run replayed
  have start : (AppendRun.opened {} {} : AppendRun Unit).Serial nestedCodec := AppendRun.opened_serial {} {}
  have serial : run.Serial nestedCodec := Run.invariant (AppendRun.step nestedCodec)
    (AppendRun.Serial nestedCodec) (fun _ statement serial => serial.step statement) start _
  have returned := (start.append rfl () {} "s" (nestedArray 127)).2
  have member : SqliteStorage.numberedEntry {} "s" (nestedArray 127) 1 ∈ run.entries {} "s" := by
    rw [AppendRun.entries, logOf, returned]
    exact List.mem_filter.2 ⟨List.mem_append_right _ List.mem_cons_self, rfl⟩
  have readable := (serial.logs.replayLog_iff {} "s").1 replayed _ member
  have refused := readColumns_nestedArray 127
  rw [if_neg (by decide)] at refused
  exact nomatch refused.symm.trans readable

end Codel00p
