import Codel00p.Lib.Run
import Codel00p.Storage.Sqlite

/-! Puts of several connections to one database: each reads a version in one statement and writes in another. -/

namespace Codel00p

open SqliteStorage (documentVersion valueVersion nextVersion)

inductive Put where
  | value (item : StorageValue Json)
  | document (item : StorageDocument Json)

inductive PutKey where
  | value (key : ValueKey)
  | document (key : DocumentKey)
  deriving DecidableEq

def Put.key : Put → PutKey
  | .value item => .value ⟨item.scope, item.key⟩
  | .document item => .document ⟨item.scope, item.collection, item.id⟩

def SqliteStorage.versionAt (tables : SqliteStorage) : PutKey → Option Nat
  | .value key => tables.valueVersion (scopeKey key.scope) key.key
  | .document key => tables.documentVersion (scopeKey key.scope) key.collection key.id

def Put.write (codec : JsonCodec) (put : Put) (version : Nat) (tables : SqliteStorage) : SqliteStorage :=
  match put with
  | .value item => { tables with values := tables.values.upsert (valueRow codec { item with version }) }
  | .document item =>
    { tables with documents := tables.documents.upsert (documentRow codec { item with version }) }

theorem Put.versionAt_write (codec : JsonCodec) (put : Put) (version : Nat) (tables : SqliteStorage) (key : PutKey) :
    (put.write codec version tables).versionAt key =
      if key = put.key then some version else tables.versionAt key := by
  cases put with
  | value item =>
    cases key with
    | document key => simp [Put.write, Put.key, SqliteStorage.versionAt, documentVersion]
    | value key =>
      -- The keys of the rows are equal just when the keys of the values are.
      have keys : (scopeKey key.scope, key.key) = (scopeKey item.scope, item.key) ↔
          key = ⟨item.scope, item.key⟩ := by
        cases key
        simp [scopeKey_injective.eq_iff]
      simp only [Put.write, Put.key, SqliteStorage.versionAt, valueVersion, Table.find_upsert,
        ValueRow.primary, valueRow, keys, PutKey.value.injEq]
      split <;> rfl
  | document item =>
    cases key with
    | value key => simp [Put.write, Put.key, SqliteStorage.versionAt, valueVersion]
    | document key =>
      have keys : (scopeKey key.scope, key.collection, key.id) =
          (scopeKey item.scope, item.collection, item.id) ↔ key = ⟨item.scope, item.collection, item.id⟩ := by
        cases key
        simp [scopeKey_injective.eq_iff]
      simp only [Put.write, Put.key, SqliteStorage.versionAt, documentVersion,
        Table.find_upsert, DocumentRow.primary, documentRow, keys, PutKey.document.injEq]
      split <;> rfl

inductive PutStep (κ : Type) where
  /-- Start a put by reading the version at its key. -/
  | read (connection : κ) (put : Put)
  /-- Finish the put that was started by writing its row. -/
  | write (connection : κ)
  /-- Fail to write, so that the put ends with an error. -/
  | fail (connection : κ)

/-- A database with its connections, and the versions that puts returned so far. -/
structure PutRun (κ : Type) where
  tables : SqliteStorage
  /-- The put that a connection is about to finish, with the version it read. -/
  started : κ → Option (Put × Option Nat)
  returned : List (PutKey × Nat)

namespace PutRun

variable {κ : Type} [DecidableEq κ] (codec : JsonCodec)

/-- Connections that have not started anything. -/
def opened (tables : SqliteStorage) : PutRun κ := { tables, started := fun _ => none, returned := [] }

/-- Carry out a statement; a connection does one put at a time. -/
def step (run : PutRun κ) : PutStep κ → PutRun κ
  | .read connection put =>
    match run.started connection with
    | some _ => run
    | none =>
      { run with
        started := Function.update run.started connection (some (put, run.tables.versionAt put.key)) }
  | .write connection =>
    match run.started connection with
    | none => run
    | some (put, read) =>
      let version := nextVersion read
      { tables := put.write codec version run.tables
        started := Function.update run.started connection none
        returned := run.returned ++ [(put.key, version)] }
  | .fail connection => { run with started := Function.update run.started connection none }

def versions (run : PutRun κ) (key : PutKey) : List Nat :=
  (run.returned.filter fun answer => answer.1 = key).map Prod.snd

/-- Every put returned a greater version than all puts at its key before. -/
def Increasing (run : PutRun κ) : Prop := ∀ key, (run.versions key).Pairwise (· < ·)

def Unraced (run : PutRun κ) : PutStep κ → Prop
  | .write connection => ∀ put read, run.started connection = some (put, read) → run.tables.versionAt put.key = read
  | _ => True

structure Ordered (run : PutRun κ) : Prop where
  stored : ∀ key, ∀ version ∈ run.versions key, ∃ last, run.tables.versionAt key = some last ∧ version ≤ last
  overtaken : ∀ connection put read, run.started connection = some (put, read) →
    run.tables.versionAt put.key = read ∨ ∃ version ∈ run.versions put.key, nextVersion read ≤ version

variable {codec} {run : PutRun κ}

omit [DecidableEq κ] in
theorem opened_ordered (tables : SqliteStorage) : (opened tables : PutRun κ).Ordered where
  stored _ _ member := nomatch member
  overtaken _ _ _ started := nomatch started

variable {connection : κ} {put : Put} {read : Option Nat}

theorem step_write (started : run.started connection = some (put, read)) : run.step codec (.write connection) =
      { tables := put.write codec (nextVersion read) run.tables
        started := Function.update run.started connection none
        returned := run.returned ++ [(put.key, nextVersion read)] } := by
  simp [step, started]

theorem versions_write (started : run.started connection = some (put, read)) (key : PutKey) :
    (run.step codec (.write connection)).versions key =
      run.versions key ++ if put.key = key then [nextVersion read] else [] := by
  rw [step_write started, versions, List.filter_append, List.map_append]
  by_cases same : put.key = key <;> simp [versions, same]

theorem versions_step (codec : JsonCodec) (run : PutRun κ) (statement : PutStep κ) (key : PutKey) :
    ∃ new, (run.step codec statement).versions key = run.versions key ++ new := by
  cases statement with
  | read connection put =>
    refine ⟨[], ?_⟩
    rw [List.append_nil, step]
    split <;> rfl
  | fail connection => exact ⟨[], (List.append_nil _).symm⟩
  | write connection =>
    cases started : run.started connection with
    | none => exact ⟨[], by simp only [step, started, List.append_nil]⟩
    | some put => exact ⟨_, versions_write started key⟩

theorem Increasing.before {statement : PutStep κ} (after : (run.step codec statement).Increasing) :
    run.Increasing := by
  intro key
  obtain ⟨new, extended⟩ := versions_step codec run statement key
  have increasing := after key
  rw [extended] at increasing
  exact (List.pairwise_append.1 increasing).1

theorem Ordered.increasing_write (ordered : run.Ordered) (increasing : run.Increasing)
    (started : run.started connection = some (put, read)) :
    (run.step codec (.write connection)).Increasing ↔ run.tables.versionAt put.key = read := by
  constructor
  · -- An overtaken put returns a version that was returned before.
    intro after
    rcases ordered.overtaken connection put read started with same | ⟨version, earlier, reached⟩
    · exact same
    · have apart := after put.key
      rw [versions_write started, if_pos rfl, List.pairwise_append] at apart
      have greater := apart.2.2 version earlier _ List.mem_cons_self
      omega
  · intro same key
    rw [versions_write started]
    by_cases own : put.key = key
    · subst own
      rw [if_pos rfl, List.pairwise_append]
      refine ⟨increasing put.key, List.pairwise_singleton _ _, fun version earlier next member => ?_⟩
      cases List.mem_singleton.1 member
      -- The version that is read is the last one stored, so the next one is past all that were returned.
      obtain ⟨last, stored, below⟩ := ordered.stored put.key version earlier
      rw [← same, stored]
      exact Nat.lt_succ_of_le below
    · rw [if_neg own, List.append_nil]
      exact increasing key

theorem started_update {other : κ} {given : Option (Put × Option Nat)} {pair : Put × Option Nat}
    (started : Function.update run.started connection given other = some pair) :
    given = some pair ∨ run.started other = some pair := by
  rw [Function.update_apply] at started
  split at started
  · exact .inl started
  · exact .inr started

/-- In order, a write of the next version leaves everything in order. -/
theorem Ordered.write (ordered : run.Ordered)
    (started : run.started connection = some (put, read)) (current : run.tables.versionAt put.key = read) :
    (run.step codec (.write connection)).Ordered where
  stored := by
    intro key version member
    rw [versions_write started] at member
    rw [step_write started, Put.versionAt_write]
    by_cases own : put.key = key
    · subst own
      refine ⟨nextVersion read, if_pos rfl, ?_⟩
      rw [if_pos rfl] at member
      rcases List.mem_append.1 member with earlier | new
      · -- What was returned before is at most what was stored, which the write goes past.
        obtain ⟨last, stored, below⟩ := ordered.stored put.key version earlier
        rw [← current, stored]
        exact Nat.le_succ_of_le below
      · rw [List.mem_singleton.1 new]
    · rw [if_neg own, List.append_nil] at member
      rw [if_neg (Ne.symm own)]
      exact ordered.stored key version member
  overtaken := by
    intro other item earlier begun
    rw [versions_write started]
    rw [step_write started] at begun ⊢
    rw [Put.versionAt_write]
    rcases started_update begun with impossible | begun
    · exact nomatch impossible
    rcases ordered.overtaken other item earlier begun with same | ⟨version, member, reached⟩
    · by_cases own : put.key = item.key
      · -- The other put read the version that has just been written over.
        refine .inr ⟨nextVersion read, by simp [own], ?_⟩
        rw [← same, ← current, own]
      · exact .inl (by rw [if_neg (Ne.symm own), same])
    · exact .inr ⟨version, List.mem_append_left _ member, reached⟩

/-- What is in order stays so as long as the versions increase. -/
theorem Ordered.step (ordered : run.Ordered) {statement : PutStep κ}
    (after : (run.step codec statement).Increasing) : (run.step codec statement).Ordered := by
  cases statement with
  | read connection put =>
    cases busy : run.started connection with
    | some earlier =>
      have same : run.step codec (.read connection put) = run := by simp [PutRun.step, busy]
      rwa [same]
    | none =>
      have reads : run.step codec (.read connection put) =
          { run with
            started := Function.update run.started connection (some (put, run.tables.versionAt put.key)) } := by
        simp [PutRun.step, busy]
      rw [reads]
      refine { ordered with overtaken := fun other item read started => ?_ }
      rcases started_update started with given | before
      · -- What was read just now is what is stored.
        cases given
        exact .inl rfl
      · exact ordered.overtaken other item read before
  | fail connection =>
    refine { ordered with overtaken := fun other item read started => ?_ }
    rcases started_update started with impossible | before
    · exact nomatch impossible
    · exact ordered.overtaken other item read before
  | write connection =>
    cases ready : run.started connection with
    | none =>
      have same : run.step codec (.write connection) = run := by simp [PutRun.step, ready]
      rwa [same]
    | some pair => exact ordered.write ready ((ordered.increasing_write after.before ready).1 after)

theorem Ordered.increasing_step (ordered : run.Ordered) (increasing : run.Increasing)
    (statement : PutStep κ) : (run.step codec statement).Increasing ↔ run.Unraced statement := by
  cases statement with
  | read connection put =>
    refine ⟨fun _ => trivial, fun _ => ?_⟩
    rw [PutRun.step]
    split <;> exact increasing
  | fail connection => exact ⟨fun _ => trivial, fun _ => increasing⟩
  | write connection =>
    cases ready : run.started connection with
    | none =>
      have same : run.step codec (.write connection) = run := by simp [PutRun.step, ready]
      rw [same]
      exact ⟨fun _ put read started => (nomatch ready.symm.trans started), fun _ => increasing⟩
    | some pair =>
      rw [ordered.increasing_write increasing ready]
      constructor
      · intro current put read started
        cases ready.symm.trans started
        exact current
      · exact fun unraced => unraced pair.1 pair.2 ready

end PutRun

/--
Puts return ever greater versions just when none of them is raced.

Every prefix of the statements is a state of the run, and the tables may hold anything at its start.
-/
theorem put_versions_increase_iff {κ : Type} [DecidableEq κ] (codec : JsonCodec) (tables : SqliteStorage)
    (statements : List (PutStep κ)) : (∀ done rest, statements = done ++ rest →
      (done.foldl (PutRun.step codec) (PutRun.opened tables)).Increasing) ↔
    ∀ done statement rest, statements = done ++ statement :: rest →
      (done.foldl (PutRun.step codec) (PutRun.opened tables)).Unraced statement := by
  refine Run.throughout_iff_guarded (PutRun.step codec) (fun run => run.Increasing → run.Ordered)
    PutRun.Increasing PutRun.Unraced ?_ ?_ (fun _ => PutRun.opened_ordered tables)
    (fun _ => List.Pairwise.nil) statements
  · exact fun run statement ordered after => (ordered after.before).step after
  · exact fun run statement ordered increasing => (ordered increasing).increasing_step increasing statement

def nullPut : Put := .value { scope := {}, key := "k", payload := .null }

/-- Two connections that both read before they write return the same version. -/
theorem raced_puts_repeat : ¬([.read true nullPut, .read false nullPut, .write true, .write false].foldl
      (PutRun.step JsonText.nestedCodec) (PutRun.opened {})).Increasing := by
  intro increasing
  have twice := increasing nullPut.key
  revert twice
  decide +kernel

end Codel00p
