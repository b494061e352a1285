import Mathlib.Order.Defs.Unbundled

/-! Programs over a mutable state that may stop part of the way, and rules for reasoning about them. -/

namespace Codel00p

/-- A program changes a state as it goes and may stop with an error, keeping the state it reached. -/
abbrev Program (ε σ : Type) := ExceptT ε (StateM σ)

namespace Program

variable {ε σ τ α β ι : Type}

def exec (program : Program ε σ α) (state : σ) : Except ε α × σ := (program.run.run state).run

variable {relation : σ → σ → Prop} {program first : Program ε σ α} {next : α → Program ε σ β}

/-- Read a part of the state. -/
def reads (reader : σ → α) : Program ε σ α := do
  return reader (← getThe σ)

def change (update : σ → σ) : Program ε σ Unit := modifyThe σ update

/-- Run an operation of one part of the state that reports its result and never stops the program. -/
def within (part : σ → τ) (replace : τ → σ → σ) (operation : τ → α × τ) : Program ε σ α := do
  let state ← getThe σ
  let (answer, reached) := operation (part state)
  set (replace reached state)
  return answer

/-- Run an operation of the whole state that reports its result and never stops the program. -/
def perform (operation : σ → α × σ) : Program ε σ α := within id (fun reached _ => reached) operation

/-- Run a program to its end and hand its outcome over, also when it stopped with an error. -/
def attempt {ε' : Type} (program : Program ε σ α) : Program ε' σ (Except ε α) := perform (exec program)

def ofExcept : Except ε α → Program ε σ α
  | .ok value => pure value
  | .error error => throw error

def zoom (part : σ → τ) (replace : τ → σ → σ) (program : Program ε τ α) : Program ε σ α := do
  let outcome ← within part replace (exec program)
  ofExcept outcome

@[simp] theorem exec_pure (value : α) (state : σ) :
    exec (pure value : Program ε σ α) state = (.ok value, state) := rfl

@[simp] theorem exec_throw (error : ε) (state : σ) :
    exec (throw error : Program ε σ α) state = (.error error, state) := rfl

theorem exec_bind (first : Program ε σ α) (next : α → Program ε σ β) (state : σ) :
    exec (first >>= next) state =
      match exec first state with
      | (.ok value, reached) => exec (next value) reached
      | (.error error, reached) => (.error error, reached) := by
  -- Both sides match on the same intermediate result.
  simp only [exec, ExceptT.run_bind, StateT.run_bind, Id.run_bind]
  rcases (first.run.run state).run with ⟨result, reached⟩
  cases result <;> rfl

theorem exec_bind_eq_ok {state reached : σ} {result : β} :
    exec (first >>= next) state = (.ok result, reached) ↔ ∃ value between, exec first state = (.ok value, between) ∧
        exec (next value) between = (.ok result, reached) := by
  rw [exec_bind]
  generalize exec first state = outcome
  rcases outcome with ⟨_ | value, between⟩
  · constructor
    · exact nofun
    · rintro ⟨value, between, wrong, _⟩
      exact nomatch wrong
  · constructor
    · exact fun ran => ⟨value, between, rfl, ran⟩
    · rintro ⟨_, _, same, ran⟩
      cases same
      exact ran

@[simp] theorem exec_reads (reader : σ → α) (state : σ) :
    exec (reads reader : Program ε σ α) state = (.ok (reader state), state) := rfl

@[simp] theorem exec_change (update : σ → σ) (state : σ) :
    exec (change update : Program ε σ Unit) state = (.ok (), update state) := rfl

@[simp] theorem exec_within (part : σ → τ) (replace : τ → σ → σ) (operation : τ → α × τ) (state : σ) :
    exec (within part replace operation : Program ε σ α) state =
      (.ok (operation (part state)).1, replace (operation (part state)).2 state) := rfl

@[simp] theorem exec_perform (operation : σ → α × σ) (state : σ) : exec (perform operation : Program ε σ α) state =
      (.ok (operation state).1, (operation state).2) := rfl

@[simp] theorem exec_attempt {ε' : Type} (program : Program ε σ α) (state : σ) :
    exec (attempt program : Program ε' σ (Except ε α)) state =
      (.ok (exec program state).1, (exec program state).2) := rfl

@[simp] theorem exec_ofExcept (outcome : Except ε α) (state : σ) :
    exec (ofExcept outcome : Program ε σ α) state = (outcome, state) := by
  cases outcome <;> rfl

theorem exec_zoom (part : σ → τ) (replace : τ → σ → σ) (program : Program ε τ α) (state : σ) :
    exec (zoom part replace program) state =
      ((exec program (part state)).1, replace (exec program (part state)).2 state) := by
  rw [zoom, exec_bind, exec_within]
  exact exec_ofExcept _ _

theorem exec_ofExcept_eq_ok {outcome : Except ε α} {state reached : σ} {value : α} :
    exec (ofExcept outcome : Program ε σ α) state = (.ok value, reached) ↔ outcome = .ok value ∧ state = reached := by
  rw [exec_ofExcept, Prod.mk.injEq]

theorem exec_ofExcept_bind_eq_ok {outcome : Except ε α} {state reached : σ} {result : β} :
    exec (ofExcept outcome >>= next) state = (.ok result, reached) ↔
      ∃ value, outcome = .ok value ∧ exec (next value) state = (.ok result, reached) := by
  rw [exec_bind, exec_ofExcept]
  cases outcome <;> simp

/-! ### State changes a program may make -/

/-- Whatever a program does, the state it leaves is related to the one it was started in. -/
def Moves (relation : σ → σ → Prop) (program : Program ε σ α) : Prop := ∀ state, relation state (exec program state).2

namespace Moves

theorem pure [Std.Refl relation] (value : α) : Moves relation (Pure.pure value : Program ε σ α) :=
  fun state => Std.Refl.refl state

theorem throw [Std.Refl relation] (error : ε) : Moves relation (MonadExcept.throw error : Program ε σ α) :=
  fun state => Std.Refl.refl state

theorem ofExcept [Std.Refl relation] (outcome : Except ε α) :
    Moves relation (Program.ofExcept outcome : Program ε σ α) := by
  intro state
  rw [exec_ofExcept]
  exact Std.Refl.refl state

theorem reads [Std.Refl relation] (reader : σ → α) : Moves relation (Program.reads reader : Program ε σ α) :=
  fun state => Std.Refl.refl state

theorem change {update : σ → σ} (moved : ∀ state, relation state (update state)) :
    Moves relation (Program.change update : Program ε σ Unit) :=
  moved

theorem within {part : σ → τ} {replace : τ → σ → σ} {operation : τ → α × τ}
    (moved : ∀ state, relation state (replace (operation (part state)).2 state)) :
    Moves relation (Program.within part replace operation : Program ε σ α) :=
  moved

theorem perform {operation : σ → α × σ} (moved : ∀ state, relation state (operation state).2) :
    Moves relation (Program.perform operation : Program ε σ α) :=
  moved

theorem attempt {ε' : Type} (moves : Moves relation program) :
    Moves relation (Program.attempt program : Program ε' σ (Except ε α)) :=
  moves

theorem bind [IsTrans σ relation] (moves : Moves relation first) (rest : ∀ value, Moves relation (next value)) :
    Moves relation (first >>= next) := by
  intro state
  have moved := moves state
  rw [exec_bind]
  -- Only a first part that returned is followed by the second.
  generalize exec first state = outcome at moved ⊢
  rcases outcome with ⟨_ | value, reached⟩
  · exact moved
  · exact IsTrans.trans _ _ _ moved (rest value reached)

theorem map [Std.Refl relation] [IsTrans σ relation] (convert : α → β)
    (moves : Moves relation program) : Moves relation (convert <$> program) := by
  rw [map_eq_pure_bind]
  exact bind moves fun value => pure (convert value)

theorem ite {condition : Prop} [Decidable condition] {yes no : Program ε σ α}
    (positive : Moves relation yes) (negative : Moves relation no) :
    Moves relation (if condition then yes else no) := by
  by_cases holds : condition
  · rw [if_pos holds]
    exact positive
  · rw [if_neg holds]
    exact negative

theorem forM [Std.Refl relation] [IsTrans σ relation] {items : List ι}
    {body : ι → Program ε σ PUnit} (moves : ∀ item ∈ items, Moves relation (body item)) :
    Moves relation (items.forM body) := by
  induction items with
  | nil => exact pure ()
  | cons item items ih =>
    exact bind (moves item (by simp)) fun _ => ih fun other member => moves other (by simp [member])

theorem mapM [Std.Refl relation] [IsTrans σ relation] {items : List ι} {body : ι → Program ε σ α}
    (moves : ∀ item ∈ items, Moves relation (body item)) : Moves relation (items.mapM body) := by
  induction items with
  | nil => exact pure []
  | cons item items ih =>
    rw [List.mapM_cons]
    refine bind (moves item List.mem_cons_self) fun _ => ?_
    exact bind (ih fun other member => moves other (List.mem_cons_of_mem _ member)) fun _ => pure _

end Moves

def Returns (relation : σ → σ → Prop) (program : Program ε σ α) : Prop :=
  ∀ state, ∃ value reached, exec program state = (.ok value, reached) ∧ relation state reached

namespace Returns

theorem moves (returns : Returns relation program) : Moves relation program := by
  intro state
  obtain ⟨value, reached, ran, moved⟩ := returns state
  rw [ran]
  exact moved

theorem pure [Std.Refl relation] (value : α) : Returns relation (Pure.pure value : Program ε σ α) :=
  fun state => ⟨value, state, rfl, Std.Refl.refl state⟩

theorem reads [Std.Refl relation] (reader : σ → α) : Returns relation (Program.reads reader : Program ε σ α) :=
  fun state => ⟨reader state, state, rfl, Std.Refl.refl state⟩

theorem change {update : σ → σ} (moved : ∀ state, relation state (update state)) :
    Returns relation (Program.change update : Program ε σ Unit) :=
  fun state => ⟨(), update state, rfl, moved state⟩

theorem within {part : σ → τ} {replace : τ → σ → σ} {operation : τ → α × τ}
    (moved : ∀ state, relation state (replace (operation (part state)).2 state)) :
    Returns relation (Program.within part replace operation : Program ε σ α) :=
  fun state => ⟨_, _, rfl, moved state⟩

theorem bind [IsTrans σ relation] (returns : Returns relation first) (rest : ∀ value, Returns relation (next value)) :
    Returns relation (first >>= next) := by
  intro state
  obtain ⟨value, between, ran, moved⟩ := returns state
  obtain ⟨result, reached, goes, moves⟩ := rest value between
  exact ⟨result, reached, by rw [exec_bind, ran]; exact goes, IsTrans.trans _ _ _ moved moves⟩

theorem within_bind [IsTrans σ relation] {part : σ → τ} {replace : τ → σ → σ} {operation : τ → α × τ}
    (moved : ∀ state, relation state (replace (operation (part state)).2 state))
    (rest : ∀ state, Returns relation (next (operation (part state)).1)) :
    Returns relation (Program.within part replace operation >>= next) := by
  intro state
  obtain ⟨result, reached, goes, moves⟩ := rest state (replace (operation (part state)).2 state)
  exact ⟨result, reached, goes, IsTrans.trans _ _ _ (moved state) moves⟩

theorem forM [Std.Refl relation] [IsTrans σ relation] {items : List ι}
    {body : ι → Program ε σ PUnit} (returns : ∀ item ∈ items, Returns relation (body item)) :
    Returns relation (items.forM body) := by
  induction items with
  | nil => exact pure ()
  | cons item items ih =>
    exact bind (returns item (by simp)) fun _ => ih fun other member => returns other (by simp [member])

end Returns

/-! ### Programs that see a part of the state -/

def Sees {ν : Type} (view : σ → ν) (program : Program ε σ α) : Prop :=
  ∀ state other, view state = view other →
    (exec program state).1 = (exec program other).1 ∧ view (exec program state).2 = view (exec program other).2

namespace Sees

variable {ν : Type} {view : σ → ν}

theorem pure (value : α) : Sees view (Pure.pure value : Program ε σ α) := fun _ _ same => ⟨rfl, same⟩

theorem throw (error : ε) : Sees view (MonadExcept.throw error : Program ε σ α) := fun _ _ same => ⟨rfl, same⟩

theorem ofExcept (outcome : Except ε α) : Sees view (Program.ofExcept outcome : Program ε σ α) := by
  cases outcome with
  | ok value => exact pure value
  | error error => exact throw error

theorem reads {reader : σ → α} (seen : ∀ state other, view state = view other → reader state = reader other) :
    Sees view (Program.reads reader : Program ε σ α) :=
  fun state other same => ⟨congrArg Except.ok (seen state other same), same⟩

theorem perform {operation : σ → α × σ} (seen : ∀ state other, view state = view other →
      (operation state).1 = (operation other).1 ∧ view (operation state).2 = view (operation other).2) :
    Sees view (Program.perform operation : Program ε σ α) :=
  fun state other same => ⟨congrArg Except.ok (seen state other same).1, (seen state other same).2⟩

theorem bind (sees : Sees view first) (rest : ∀ value, Sees view (next value)) : Sees view (first >>= next) := by
  intro state other same
  obtain ⟨result, views⟩ := sees state other same
  rw [exec_bind, exec_bind]
  generalize exec first state = outcome at result views ⊢
  generalize exec first other = outcome' at result views ⊢
  rcases outcome with ⟨_ | value, reached⟩ <;> rcases outcome' with ⟨_ | value', reached'⟩ <;> cases result
  · exact ⟨rfl, views⟩
  · exact rest value reached reached' views

theorem map (convert : α → β) (sees : Sees view program) : Sees view (convert <$> program) := by
  rw [map_eq_pure_bind]
  exact bind sees fun value => pure (convert value)

end Sees

/-! ### Pre- and postconditions -/

/--
A program started where the precondition holds ends in one of the two postconditions:
the first one about the value it returned, the second about the error it stopped with.
-/
structure Triple (before : σ → Prop) (program : Program ε σ α) (after : α → σ → Prop)
    (stopped : ε → σ → Prop) : Prop where
  run : ∀ state, before state →
    match exec program state with
    | (.ok value, reached) => after value reached
    | (.error error, reached) => stopped error reached

namespace Triple

variable {before before' : σ → Prop} {after after' : α → σ → Prop} {stopped stopped' : ε → σ → Prop}

theorem pure (value : α) (holds : ∀ state, before state → after value state) :
    Triple before (Pure.pure value : Program ε σ α) after stopped :=
  ⟨holds⟩

theorem throw (error : ε) (holds : ∀ state, before state → stopped error state) :
    Triple before (MonadExcept.throw error : Program ε σ α) after stopped :=
  ⟨holds⟩

theorem change {update : σ → σ} {after : Unit → σ → Prop} (holds : ∀ state, before state → after () (update state)) :
    Triple before (Program.change update : Program ε σ Unit) after stopped :=
  ⟨holds⟩

theorem reads {reader : σ → α} (holds : ∀ state, before state → after (reader state) state) :
    Triple before (Program.reads reader : Program ε σ α) after stopped :=
  ⟨holds⟩

theorem perform {operation : σ → α × σ}
    (holds : ∀ state, before state → after (operation state).1 (operation state).2) :
    Triple before (Program.perform operation : Program ε σ α) after stopped :=
  ⟨holds⟩

theorem bind {between : α → σ → Prop} {after : β → σ → Prop} (starts : Triple before first between stopped)
    (goesOn : ∀ value, Triple (between value) (next value) after stopped) :
    Triple before (first >>= next) after stopped := by
  refine ⟨fun state holds => ?_⟩
  have middle := starts.run state holds
  rw [exec_bind]
  generalize exec first state = outcome at middle ⊢
  rcases outcome with ⟨_ | value, reached⟩
  · exact middle
  · exact (goesOn value).run reached middle

theorem pass {after : β → σ → Prop} (value : α) (goesOn : Triple before (next value) after stopped) :
    Triple before (Pure.pure value >>= next) after stopped :=
  ⟨goesOn.run⟩

theorem reads_bind {after : β → σ → Prop} {reader : σ → α}
    (goesOn : ∀ value, Triple (fun state => before state ∧ reader state = value) (next value) after
      stopped) : Triple before (Program.reads reader >>= next) after stopped :=
  bind (reads fun _ holds => ⟨holds, rfl⟩) goesOn

theorem change_bind (between : σ → Prop) {after : β → σ → Prop} {update : σ → σ}
    {next : Unit → Program ε σ β} (holds : ∀ state, before state → between (update state))
    (goesOn : Triple between (next ()) after stopped) :
    Triple before (Program.change update >>= next) after stopped :=
  bind (change holds) fun _ => goesOn

theorem stop {after : β → σ → Prop} (error : ε) (holds : ∀ state, before state → stopped error state) :
    Triple before (MonadExcept.throw error >>= next) after stopped :=
  ⟨holds⟩

theorem ite {condition : Prop} [Decidable condition] {yes no : Program ε σ α}
    (positive : condition → Triple before yes after stopped)
    (negative : ¬condition → Triple before no after stopped) :
    Triple before (if condition then yes else no) after stopped := by
  by_cases holds : condition
  · rw [if_pos holds]
    exact positive holds
  · rw [if_neg holds]
    exact negative holds

theorem weaken (proved : Triple before' program after' stopped') (sooner : ∀ state, before state → before' state)
    (later : ∀ value state, after' value state → after value state)
    (stops : ∀ error state, stopped' error state → stopped error state) : Triple before program after stopped := by
  refine ⟨fun state holds => ?_⟩
  have reached := proved.run state (sooner state holds)
  generalize exec program state = outcome at reached ⊢
  rcases outcome with ⟨_ | _, _⟩
  · exact stops _ _ reached
  · exact later _ _ reached

theorem starting (proved : Triple before' program after stopped) (sooner : ∀ state, before state → before' state) :
    Triple before program after stopped :=
  proved.weaken sooner (fun _ _ holds => holds) fun _ _ holds => holds

theorem stopping (proved : Triple before program after stopped')
    (stops : ∀ error state, stopped' error state → stopped error state) : Triple before program after stopped :=
  proved.weaken (fun _ holds => holds) (fun _ _ holds => holds) stops

theorem each (proved : ∀ state, before state → Triple (· = state) program after stopped) :
    Triple before program after stopped :=
  ⟨fun state holds => (proved state holds).run state rfl⟩

theorem knowing {fact : Prop} (known : ∀ state, before state → fact)
    (proved : fact → Triple before program after stopped) : Triple before program after stopped :=
  ⟨fun state holds => (proved (known state holds)).run state holds⟩

theorem reaches {reached : σ → Prop} (proved : Triple before program (fun _ => reached) fun _ => reached) {state : σ}
    (holds : before state) : reached (exec program state).2 := by
  have ran := proved.run state holds
  generalize exec program state = outcome at ran ⊢
  rcases outcome with ⟨_ | _, _⟩ <;> exact ran

theorem of_moves {kept : σ → Prop} (moves : Moves relation program)
    (keeps : ∀ state reached, relation state reached → kept state → kept reached) :
    Triple kept program (fun _ => kept) (fun _ => kept) := by
  refine ⟨fun state holds => ?_⟩
  have reached := keeps _ _ (moves state) holds
  generalize exec program state = outcome at reached ⊢
  rcases outcome with ⟨_ | _, _⟩ <;> exact reached

theorem moves [Std.Refl relation]
    (proved : ∀ base, Triple (relation base) program (fun _ => relation base) fun _ => relation base) :
    Moves relation program :=
  fun state => (proved state).reaches (Std.Refl.refl state)

theorem of_returns {kept : σ → Prop} (returns : Returns relation program)
    (keeps : ∀ state reached, relation state reached → kept state → kept reached) :
    Triple kept program (fun _ => kept) stopped := by
  refine ⟨fun state holds => ?_⟩
  obtain ⟨value, reached, ran, moved⟩ := returns state
  rw [ran]
  exact keeps _ _ moved holds

theorem forM (invariant : List ι → σ → Prop) {body : ι → Program ε σ PUnit}
    (turn : ∀ item rest, Triple (invariant (item :: rest)) (body item)
      (fun _ => invariant rest) stopped) (items : List ι) :
    Triple (invariant items) (items.forM body) (fun _ => invariant []) stopped := by
  induction items with
  | nil => exact pure _ fun _ holds => holds
  | cons item items ih => exact bind (turn item items) fun _ => ih

theorem mapM (invariant : List (ι × α) → σ → Prop) {body : ι → Program ε σ α} (items : List ι)
    (turn : ∀ done, ∀ item ∈ items, Triple (invariant done) (body item)
      (fun value => invariant (done ++ [(item, value)])) stopped) (done : List (ι × α)) :
    Triple (invariant done) (items.mapM body)
      (fun values state => values.length = items.length ∧ invariant (done ++ items.zip values) state)
      stopped := by
  induction items generalizing done with
  | nil => exact pure _ fun _ holds => ⟨rfl, by simpa using holds⟩
  | cons item items ih =>
    rw [List.mapM_cons]
    have later := ih fun done other member => turn done other (List.mem_cons_of_mem _ member)
    refine bind (turn done item List.mem_cons_self) fun value => ?_
    refine bind (later (done ++ [(item, value)])) fun values => ?_
    exact pure _ fun _ ⟨same, holds⟩ => ⟨by simp [same], by simpa using holds⟩

end Triple

end Program

end Codel00p
