import Mathlib.Data.List.TakeWhile
import Codel00p.Harness.Course
import Codel00p.Harness.Protocol

/-! The failure budget: which failures of one operation in a row earn a nudge to step back. -/

namespace Codel00p

open Program (exec Moves Triple Returns)

variable {ω : Type}

/-! ### The attempts at one operation -/

/-- How one attempt at an operation ended. -/
inductive Attempt where
  | success
  | invalidInput
  | failure
  deriving DecidableEq, Repr

namespace Attempt

def fails : Attempt → Bool
  | .success => false
  | _ => true

def counted (streak : Nat) : Attempt → Nat
  | .success => 0
  | .invalidInput => if streak = 0 then 0 else streak + 1
  | .failure => streak + 1

def streak (attempts : List Attempt) : Nat := attempts.foldl counted 0

def nudges (budget : Nat) : Nat → List Attempt → Nat
  | _, [] => 0
  | streak, attempt :: rest =>
    (if attempt.counted streak = streak + 1 ∧ streak + 1 = budget then 1 else 0)
      + nudges budget (attempt.counted streak) rest

/-- The failures since the last success. -/
def currentRun (attempts : List Attempt) : List Attempt := (attempts.reverse.takeWhile fails).reverse

def charged (run : List Attempt) : List Attempt := run.dropWhile (· = .invalidInput)

theorem fails_of_mem_currentRun {attempts : List Attempt} {attempt : Attempt}
    (member : attempt ∈ currentRun attempts) : attempt.fails = true :=
  List.mem_takeWhile_imp (List.mem_reverse.1 member)

theorem currentRun_append {attempts window : List Attempt} (failing : ∀ attempt ∈ window, attempt.fails = true) :
    currentRun (attempts ++ window) = currentRun attempts ++ window := by
  rw [currentRun, List.reverse_append, List.takeWhile_append_of_pos (by simpa using failing), List.reverse_append,
    List.reverse_reverse]
  rfl

theorem streak_currentRun (attempts : List Attempt) : streak (currentRun attempts) = streak attempts := by
  induction attempts using List.reverseRecOn with
  | nil => rfl
  | append_singleton attempts attempt ih =>
    cases attempt with
    | success => simp [currentRun, streak, fails, counted]
    | invalidInput | failure =>
      rw [currentRun_append (by simp [fails])]
      simp only [streak, List.foldl_append] at ih ⊢
      rw [ih]

theorem counted_succ {attempt : Attempt} (fails : attempt.fails = true) (start : Nat) :
    attempt.counted (start + 1) = start + 1 + 1 := by
  cases attempt <;> first | rfl | exact nomatch fails

theorem foldl_counted_pos {run : List Attempt} (failing : ∀ attempt ∈ run, attempt.fails = true) (start : Nat) :
    run.foldl counted (start + 1) = start + 1 + run.length := by
  induction run generalizing start with
  | nil => rfl
  | cons attempt rest ih =>
    have first := counted_succ (failing attempt List.mem_cons_self) start
    rw [List.foldl_cons, first, ih (fun other member => failing other (List.mem_cons_of_mem _ member)),
      List.length_cons]
    omega

theorem streak_run {run : List Attempt} (failing : ∀ attempt ∈ run, attempt.fails = true) :
    streak run = (charged run).length := by
  induction run with
  | nil => rfl
  | cons attempt rest ih =>
    have later := fun other member => failing other (List.mem_cons_of_mem attempt member)
    have now := failing attempt List.mem_cons_self
    cases attempt with
    | success => exact nomatch now
    | invalidInput => exact ih later
    | failure =>
      rw [streak, List.foldl_cons, show counted 0 .failure = 0 + 1 from rfl, foldl_counted_pos later]
      simp [charged]
      omega

/-- A run of failures earns a nudge if its streak passes the budget. -/
theorem nudges_run (budget : Nat) {run : List Attempt} (failing : ∀ attempt ∈ run, attempt.fails = true)
    (start : Nat) : start ≤ run.foldl counted start ∧ nudges budget start run =
      if start < budget ∧ budget ≤ run.foldl counted start then 1 else 0 := by
  induction run generalizing start with
  | nil => exact ⟨Nat.le_refl _, by rw [nudges, List.foldl_nil]; split_ifs <;> omega⟩
  | cons attempt rest ih =>
    obtain ⟨grown, later⟩ := ih (fun other member => failing other (List.mem_cons_of_mem _ member))
      (attempt.counted start)
    have step : attempt.counted start = start ∨ attempt.counted start = start + 1 := by
      have now := failing attempt List.mem_cons_self
      cases attempt with
      | success => exact nomatch now
      | failure => exact .inr rfl
      | invalidInput =>
        simp only [counted]
        split_ifs <;> omega
    rw [nudges, later, List.foldl_cons]
    -- The budget is used up now, or it may be used up later.
    rcases step with same | more
    · exact ⟨by omega, by split_ifs <;> omega⟩
    · exact ⟨by omega, by split_ifs <;> omega⟩

/-- After one failure more than the budget a nudge has been earned, unless the first two of them were forgiven. -/
theorem nudged_iff {budget : Nat} (positive : 0 < budget) {before window : List Attempt}
    (failing : ∀ attempt ∈ window, attempt.fails = true) (long : window.length = budget + 1) :
    0 < nudges budget 0 (currentRun (before ++ window)) ↔
      ¬(streak before = 0 ∧ ∀ attempt ∈ window.take 2, attempt = .invalidInput) := by
  have running : ∀ attempt ∈ currentRun before, attempt.fails = true := fun _ member => fails_of_mem_currentRun member
  have all : ∀ attempt ∈ currentRun before ++ window, attempt.fails = true := by
    intro attempt member
    rcases List.mem_append.1 member with old | new
    · exact running attempt old
    · exact failing attempt new
  have earned : 0 < nudges budget 0 (currentRun (before ++ window)) ↔
      budget ≤ (charged (currentRun before ++ window)).length := by
    rw [currentRun_append failing, (nudges_run budget all 0).2, ← streak_run all, streak]
    split_ifs <;> simp_all
  rw [earned, ← streak_currentRun, streak_run running]
  -- What counts depends on whether something was counted before.
  rw [charged, List.dropWhile_append]
  cases counts : charged (currentRun before) with
  | cons first rest =>
    rw [charged] at counts
    simp [counts]
    omega
  | nil =>
    rw [charged] at counts
    simp only [counts, List.isEmpty_nil, if_true, List.length_nil, true_and]
    obtain ⟨first, second, rest, rfl⟩ : ∃ first second rest, window = first :: second :: rest := by
      match window, long with
      | [], wrong => simp at wrong
      | [_], wrong => simp at wrong; omega
      | first :: second :: rest, _ => exact ⟨first, second, rest, rfl⟩
    simp only [List.length_cons] at long
    by_cases forgiven : first = .invalidInput
    · by_cases again : second = .invalidInput
      · -- Of the rest of the window there is one failure less than the budget.
        have short : (rest.dropWhile (· = Attempt.invalidInput)).length ≤ rest.length :=
          (List.dropWhile_sublist _).length_le
        simp [forgiven, again]
        omega
      · simp [forgiven, again]
        omega
    · simp [forgiven]
      omega

end Attempt

/-! ### The answers of a turn -/

section

variable (tracker : FailureTracker)

include tracker

@[simp] theorem FailureTracker.streak_recordFailure_self (operation : String) :
    (tracker.recordFailure operation).streak operation = tracker.streak operation + 1 := by
  simp [recordFailure, streak]

theorem FailureTracker.streak_recordFailure_other {operation other : String}
    (differ : other ≠ operation) : (tracker.recordFailure operation).streak other = tracker.streak other := by
  simp [recordFailure, streak, Assoc.lookup_insert_other differ]

@[simp] theorem FailureTracker.streak_recordSuccess_self (operation : String) :
    (tracker.recordSuccess operation).streak operation = 0 := by
  simp [recordSuccess, streak]

theorem FailureTracker.streak_recordSuccess_other {operation other : String}
    (differ : other ≠ operation) : (tracker.recordSuccess operation).streak other = tracker.streak other := by
  simp [recordSuccess, streak, Assoc.lookup_erase_other differ]

end

def ModelToolCall.operation (call : ModelToolCall) : String := operationSignature call.name call.input

theorem operationSignature_eq (call : ModelToolCall) : operationSignature call.name call.input = call.operation := rfl

def TurnNote.answers : TurnNote ω → List (ModelToolCall × ToolAnswer)
  | .batch note => note.answers
  | _ => []

def history (notes : List (TurnNote ω)) : List (ModelToolCall × ToolAnswer) := notes.flatMap TurnNote.answers

def EventKind.exceeded : EventKind → Option String
  | .failureBudgetExceeded operation _ _ => some operation
  | _ => none

/-- A failure text that does not fit into a nudge and would be cut inside a character. -/
def cutsExcerpt (message : String) : Bool :=
  decide (400 < (trim message).utf8ByteSize) && (sliceTo 400 (trim message).toList).isNone

theorem cutsExcerpt_of_replanNudge {operation message : String} {attempts : Nat} {replan : Bool}
    (fails : replanNudge operation attempts message replan = none) : cutsExcerpt message = true := by
  simp only [replanNudge] at fails
  split at fails
  · next long =>
    have cut : sliceTo 400 (trim message).toList = none := by
      cases sliced : sliceTo 400 (trim message).toList with
      | none => rfl
      | some front =>
        rw [sliced] at fails
        exact nomatch fails
    simp [cutsExcerpt, long, cut]
  · exact nomatch fails

namespace AgentHarness

variable (harness : AgentHarness ω) (turnId : String)

/-- How a call ended, as far as its failure budget is concerned. -/
def attempt (answer : ToolAnswer) : Attempt :=
  let content := (plainResult answer).content
  if resultIsFailure content then
    if classifyKind (failureMessage harness.codec content) = .invalidInput then .invalidInput else .failure
  else .success

def attempts (operation : String) (answers : List (ModelToolCall × ToolAnswer)) : List Attempt :=
  (answers.filter fun pair => pair.1.operation = operation).map fun pair => harness.attempt pair.2

def trackersAfter (tracker : FailureTracker) (answers : List (ModelToolCall × ToolAnswer)) : FailureTracker :=
  answers.foldl (fun tracker (call, answer) => harness.trackerAfter tracker call (plainResult answer).content) tracker

def earned (tracker : FailureTracker) : List (ModelToolCall × ToolAnswer) → List (String × Option String)
  | [] => []
  | (call, answer) :: rest =>
    let content := (plainResult answer).content
    (if harness.trips tracker call content then
      [(call.operation, replanNudge call.operation (tracker.streak call.operation + 1)
        (failureMessage harness.codec content) harness.planning)]
    else []) ++ earned (harness.trackerAfter tracker call content) rest

theorem earned_append (tracker : FailureTracker) (first second : List (ModelToolCall × ToolAnswer)) :
    harness.earned tracker (first ++ second) =
      harness.earned tracker first ++ harness.earned (harness.trackersAfter tracker first) second := by
  induction first generalizing tracker with
  | nil => rfl
  | cons pair rest ih => simp [earned, trackersAfter, ih]

theorem streak_trackerAfter (tracker : FailureTracker) (call : ModelToolCall) (answer : ToolAnswer)
    (operation : String) :
    (harness.trackerAfter tracker call (plainResult answer).content).streak operation =
      if call.operation = operation then (harness.attempt answer).counted (tracker.streak operation)
      else tracker.streak operation := by
  by_cases own : call.operation = operation
  · subst own
    simp only [trackerAfter, graced, attempt, operationSignature_eq]
    by_cases failed : resultIsFailure (plainResult answer).content = true
    · by_cases invalid : classifyKind (failureMessage harness.codec (plainResult answer).content) = .invalidInput
      · -- Invalid input counts once something else has been counted.
        by_cases uncounted : tracker.streak call.operation = 0 <;> simp [failed, invalid, Attempt.counted, uncounted]
      · simp [failed, invalid, Attempt.counted]
    · simp [failed, Attempt.counted]
  · have differ : operation ≠ call.operation := fun same => own same.symm
    -- Whatever is recorded is recorded for another operation.
    simp [trackerAfter, if_neg own, operationSignature_eq, apply_ite (FailureTracker.streak · operation), ite_self, tracker.streak_recordFailure_other differ, tracker.streak_recordSuccess_other differ]

theorem trips_iff (replans : harness.selfCorrect.replanOnFailure = true)
    (positive : 0 < harness.selfCorrect.failureBudget) (tracker : FailureTracker) (call : ModelToolCall)
    (answer : ToolAnswer) : harness.trips tracker call (plainResult answer).content = true ↔
      (harness.attempt answer).counted (tracker.streak call.operation) = tracker.streak call.operation + 1 ∧
        tracker.streak call.operation + 1 = harness.selfCorrect.failureBudget := by
  simp only [trips, graced, attempt, operationSignature_eq]
  by_cases failed : resultIsFailure (plainResult answer).content = true
  · by_cases invalid : classifyKind (failureMessage harness.codec (plainResult answer).content) = .invalidInput
    · by_cases uncounted : tracker.streak call.operation = 0
      · simp [failed, invalid, uncounted, Attempt.counted]
      · simp [failed, invalid, uncounted, Attempt.counted, replans, positive]
    · simp [failed, invalid, Attempt.counted, replans, positive]
  · simp [failed, Attempt.counted]

theorem count_earned (replans : harness.selfCorrect.replanOnFailure = true)
    (positive : 0 < harness.selfCorrect.failureBudget) (operation : String) (tracker : FailureTracker)
    (answers : List (ModelToolCall × ToolAnswer)) : ((harness.earned tracker answers).map (·.1)).count operation =
      Attempt.nudges harness.selfCorrect.failureBudget (tracker.streak operation)
        (harness.attempts operation answers) := by
  induction answers generalizing tracker with
  | nil => rfl
  | cons pair rest ih =>
    obtain ⟨call, answer⟩ := pair
    rw [earned, List.map_append, List.count_append, ih, streak_trackerAfter]
    by_cases own : call.operation = operation
    · subst own
      have trips := harness.trips_iff replans positive tracker call answer
      simp only [attempts, List.filter_cons, decide_true, if_true, List.map_cons, Attempt.nudges]
      by_cases tripped : harness.trips tracker call (plainResult answer).content = true
      · simp [tripped, trips.1 tripped]
      · simp [tripped, mt trips.2 tripped]
    · -- What other operations earn is not counted here.
      simp only [attempts, List.filter_cons, own, decide_false, if_false]
      by_cases tripped : harness.trips tracker call (plainResult answer).content = true
      · simp [tripped, own]
      · simp [tripped]

/-! ### Accounting for the answers of a turn -/

/-- A failing answer whose text would be cut inside a character. -/
def Cuts (pair : ModelToolCall × ToolAnswer) : Prop :=
  cutsExcerpt (failureMessage harness.codec (plainResult pair.2).content) = true

instance (pair : ModelToolCall × ToolAnswer) : Decidable (harness.Cuts pair) := inferInstanceAs (Decidable (_ = true))

/-- What is on record while a batch is accounted for: its notes, its streaks, and the budgets used up so far. -/
structure Ledger (notes : List (TurnNote ω)) (messages : List SessionMessage) (tracker : FailureTracker)
    (reported : List String) (state : TurnState ω) : Prop where
  notes : state.record.notes = notes
  said : messages <+: state.session.messages
  tracker : state.record.failures = tracker
  reported : state.record.events.filterMap EventKind.exceeded = reported

section

variable {notes : List (TurnNote ω)} {messages : List SessionMessage} {tracker : FailureTracker}
  {reported : List String}

theorem Ledger.aside {state reached : TurnState ω} (moved : Aside state reached)
    (ledger : Ledger notes messages tracker reported state) : Ledger notes messages tracker reported reached where
  notes := moved.record ▸ ledger.notes
  said := ledger.said.trans moved.said
  tracker := moved.record ▸ ledger.tracker
  reported := moved.record ▸ ledger.reported

theorem Ledger.passing {α : Type} {program : TurnM ω α} {stopped : TurnStop → TurnState ω → Prop}
    (returns : Returns Aside program) : Triple (Ledger notes messages tracker reported) program
      (fun _ => Ledger notes messages tracker reported) stopped :=
  .of_returns returns fun _ _ moved ledger => ledger.aside moved

/-- What some answers change and earn has been entered, and the texts of the nudges were made. -/
def Entered (notes : List (TurnNote ω)) (messages : List SessionMessage) (tracker : FailureTracker)
    (reported : List String) (answers : List (ModelToolCall × ToolAnswer)) (nudges : List String)
    (state : TurnState ω) : Prop :=
  Ledger notes messages (harness.trackersAfter tracker answers)
      (reported ++ (harness.earned tracker answers).map (·.1)) state ∧
    (harness.earned tracker answers).map (·.2) = nudges.map some

/-- Accounting for an answer enters what it earns. -/
theorem accountFailure_ledger (call : ModelToolCall) (answer : ToolAnswer) :
    Triple (Ledger notes messages tracker reported) (harness.accountFailure turnId call (plainResult answer).content)
      (fun nudge state => harness.Entered notes messages tracker reported [(call, answer)] nudge.toList state)
      (fun _ state => state.record.notes = notes ∧ harness.Cuts (call, answer)) := by
  refine .reads_bind fun seen => .change_bind (fun state => seen = tracker ∧
    Ledger notes messages (harness.trackersAfter tracker [(call, answer)]) reported state) ?_ ?_
  · rintro state ⟨ledger, read⟩
    have own : seen = tracker := read.symm.trans ledger.tracker
    subst own
    exact ⟨rfl, ledger.notes, ledger.said, rfl, ledger.reported⟩
  refine .knowing (fun _ holds => holds.1) ?_
  rintro rfl
  refine .ite (fun trips => ?_) fun rests => .pure _ fun state holds => ?_
  · -- The event is reported before the text is made.
    refine .bind (harness.recordEvent_record turnId rfl (Ledger notes messages
      (harness.trackersAfter seen [(call, answer)]) (reported ++ [call.operation]))
      fun state reached reports same ⟨_, ledger⟩ => ?_) fun _ => ?_
    · refine ⟨?_, same ▸ ledger.said, ?_, ?_⟩ <;> rw [reports]
      · exact ledger.notes
      · exact ledger.tracker
      · rw [List.filterMap_append, ledger.reported]
        rfl
    · simp only [Entered, earned, trips, if_true, List.append_nil, List.map_cons, List.map_nil, operationSignature_eq]
      split
      · next cut =>
        exact .throw _ fun state ledger => ⟨ledger.notes, cutsExcerpt_of_replanNudge cut⟩
      · next nudge made =>
        exact .pure _ fun state ledger => ⟨ledger, by rw [made]; rfl⟩
  · have nothing : harness.earned seen [(call, answer)] = [] := by simp [earned, rests]
    rw [Entered, nothing]
    exact ⟨by simpa using holds.2, rfl⟩

theorem settleCall_ledger (call : ModelToolCall) (answer : ToolAnswer) :
    Triple (Ledger notes messages tracker reported) (harness.settleCall turnId call answer)
      (fun nudge => harness.Entered notes messages tracker reported [(call, answer)] nudge.toList)
      (fun _ state => state.record.notes = notes ∧ harness.Cuts (call, answer)) := by
  refine .bind (Ledger.passing (Aside.routine.reportAnswer turnId call answer)) fun _ => ?_
  refine .bind (harness.accountFailure_ledger turnId call answer) fun nudge => ?_
  refine .knowing (fun _ holds => holds.2) fun made => ?_
  refine .bind ((Ledger.passing (Aside.routine.withHost (.truncateOutput _ _))).starting (fun _ holds => holds.1)) fun recorded => ?_
  refine .change_bind (Ledger notes messages _ _) (fun state ledger =>
    ledger.aside (IsTrans.trans _ _ _ (.push _) (.note rfl))) ?_
  refine .bind (Ledger.passing (Aside.routine.runLifecycleHook turnId _)) fun _ => ?_
  -- The record of the call itself is none of the ledger's entries.
  refine .change_bind (Ledger notes messages _ _) (fun state ledger => ?_) (.pure _ fun _ ledger => ⟨ledger, made⟩)
  exact ⟨ledger.notes, ledger.said, ledger.tracker, ledger.reported⟩

theorem settleAll_ledger (answers : List (ModelToolCall × ToolAnswer)) :
    Triple (Ledger notes messages tracker reported) (harness.settleAll turnId answers)
      (fun nudges => harness.Entered notes messages tracker reported answers nudges)
      (fun _ state => state.record.notes = notes ∧ ∃ pair ∈ answers, harness.Cuts pair) := by
  induction answers generalizing tracker reported with
  | nil => exact .pure _ fun _ ledger => ⟨by simpa [earned, trackersAfter] using ledger, rfl⟩
  | cons pair rest ih =>
    obtain ⟨call, answer⟩ := pair
    have split := harness.earned_append tracker [(call, answer)] rest
    rw [List.singleton_append] at split
    refine .bind ((harness.settleCall_ledger turnId call answer).stopping
      fun _ _ cut => ⟨cut.1, _, List.mem_cons_self, cut.2⟩) fun nudge => ?_
    refine .knowing (fun _ holds => holds.2) fun first => ?_
    refine .bind (ih.weaken (fun _ holds => holds.1) (fun _ _ holds => holds)
      fun _ _ ⟨same, pair, member, cut⟩ => ⟨same, pair, List.mem_cons_of_mem _ member, cut⟩)
      fun nudges => .pure _ fun _ ⟨ledger, later⟩ => ?_
    rw [Entered, split, List.map_append, List.map_append, List.map_append, ← List.append_assoc, first, later]
    exact ⟨ledger, rfl⟩

end

/-- What a turn has on record follows from its answers: the streaks, the budgets used up, and the nudges. -/
structure Tracked (state : TurnState ω) : Prop where
  tracker : state.record.failures = harness.trackersAfter {} (history state.record.notes)
  reported : state.record.events.filterMap EventKind.exceeded =
    (harness.earned {} (history state.record.notes)).map (·.1)
  said : ∀ nudge ∈ harness.earned {} (history state.record.notes),
    ∃ text, nudge.2 = some text ∧ .user text ∈ state.session.messages

def TrackedOrCut (state : TurnState ω) : Prop :=
  harness.Tracked state ∨ ∃ pair ∈ history state.record.notes, harness.Cuts pair

/-- Recording a batch keeps track of its answers. -/
theorem recordBatch_tracked (batch : List ModelToolCall) (last : Bool) (slots : List (Option ToolAnswer)) :
    Triple harness.Tracked (harness.recordBatch turnId batch last slots) (fun _ => harness.Tracked)
      (fun _ => harness.TrackedOrCut) := by
  refine .each fun start tracked => ?_
  let note : BatchNote := { calls := batch, last, failures := start.failures, slots }
  have grown : history (start.record.notes ++ [.batch note]) = history start.record.notes ++ note.answers := by
    simp [history, TurnNote.answers]
  refine .change_bind (Ledger (start.record.notes ++ [.batch note]) start.session.messages start.record.failures
    (start.record.events.filterMap EventKind.exceeded)) ?_ ?_
  · rintro _ rfl
    exact ⟨congrArg TurnRecord.notes (TurnState.record_note _ rfl), List.prefix_rfl, rfl, rfl⟩
  refine .bind ((harness.settleAll_ledger turnId note.answers).stopping
    fun _ state ⟨same, pair, member, cut⟩ => ?_) fun nudges => ?_
  · refine .inr ⟨pair, ?_, cut⟩
    rw [same, grown]
    exact List.mem_append_right _ member
  refine .knowing (fun _ holds => holds.2) fun made => ?_
  -- The nudges that were made are said after all results.
  refine (Triple.forM (fun rest state => Ledger _ start.session.messages _ _ state ∧
    ∀ text ∈ nudges, text ∈ rest ∨ .user text ∈ state.session.messages) ?_ nudges).weaken
    (fun _ holds => ⟨holds.1, fun _ member => .inl member⟩) ?_ fun _ _ cut => cut
  · refine fun text rest => .change fun state ⟨ledger, pending⟩ => ⟨ledger.aside (.push _), fun other member => ?_⟩
    rcases pending other member with waiting | done
    · rcases List.mem_cons.1 waiting with rfl | later
      · exact .inr (List.mem_append_right _ (List.mem_singleton.2 rfl))
      · exact .inl later
    · exact .inr (List.mem_append_left _ done)
  · intro _ state ⟨ledger, pending⟩
    have total : harness.earned {} (history state.record.notes) =
        harness.earned {} (history start.record.notes) ++ harness.earned start.record.failures note.answers := by
      rw [ledger.notes, grown, earned_append, ← tracked.tracker]
    refine ⟨?_, ?_, fun nudge member => ?_⟩
    · rw [ledger.tracker, ledger.notes, grown, tracked.tracker]
      exact (List.foldl_append ..).symm
    · rw [ledger.reported, total, List.map_append, tracked.reported]
    · rw [total] at member
      rcases List.mem_append.1 member with old | new
      · obtain ⟨text, same, earlier⟩ := tracked.said nudge old
        exact ⟨text, same, ledger.said.subset earlier⟩
      · have inside : nudge.2 ∈ nudges.map some := made ▸ List.mem_map_of_mem new
        obtain ⟨text, listed, same⟩ := List.mem_map.1 inside
        rcases pending text listed with waiting | done
        · exact nomatch waiting
        · exact ⟨text, same.symm, done⟩

/-- Nothing is put on record about the failures of calls. -/
structure Unaccounted (state reached : TurnState ω) : Prop where
  failures : reached.record.failures = state.record.failures
  answers : history reached.record.notes = history state.record.notes
  reported : reached.record.events.filterMap EventKind.exceeded = state.record.events.filterMap EventKind.exceeded
  said : state.session.messages <+: reached.session.messages

instance : Std.Refl (Unaccounted (ω := ω)) where
  refl _ := ⟨rfl, rfl, rfl, List.prefix_rfl⟩

instance : IsTrans (TurnState ω) Unaccounted where
  trans _ _ _ first second :=
    ⟨second.failures.trans first.failures, second.answers.trans first.answers,
      second.reported.trans first.reported, first.said.trans second.said⟩

theorem Unaccounted.of_aside {state reached : TurnState ω} (moved : Aside state reached) :
    Unaccounted state reached :=
  ⟨moved.record ▸ rfl, moved.record ▸ rfl, moved.record ▸ rfl, moved.said⟩

variable {harness} in
theorem Tracked.kept {state reached : TurnState ω} (moved : Unaccounted state reached)
    (tracked : harness.Tracked state) : harness.Tracked reached := by
  refine ⟨?_, ?_, fun nudge member => ?_⟩
  · rw [moved.failures, moved.answers, tracked.tracker]
  · rw [moved.reported, moved.answers, tracked.reported]
  · obtain ⟨text, same, said⟩ := tracked.said nudge (moved.answers ▸ member)
    exact ⟨text, same, moved.said.subset said⟩

theorem tracked_passing {α : Type} {program : TurnM ω α} (moves : Moves Aside program) :
    Triple harness.Tracked program (fun _ => harness.Tracked) (fun _ => harness.TrackedOrCut) :=
  (Triple.of_moves moves fun _ _ moved tracked => tracked.kept (.of_aside moved)).stopping
    fun _ _ tracked => .inl tracked

theorem runToolCalls_tracked (calls : List ModelToolCall) :
    Triple harness.Tracked (harness.runToolCalls turnId calls) (fun _ => harness.Tracked)
      (fun _ => harness.TrackedOrCut) := by
  have acting : Acting harness Aside := ⟨fun _ _ _ => ⟨rfl, List.prefix_rfl⟩, fun _ _ _ _ => ⟨rfl, List.prefix_rfl⟩⟩
  unfold runToolCalls
  induction batches harness.isSafe calls.length calls with
  | nil => exact .pure _ fun _ tracked => tracked
  | cons batch rest ih =>
    refine .bind ?_ fun _ => ih
    refine .bind (harness.tracked_passing (Aside.routine.decideBatch turnId acting batch)) fun _ => ?_
    refine .bind (harness.tracked_passing (Aside.routine.judge turnId _ _)) fun _ => ?_
    refine .bind (harness.tracked_passing (Aside.routine.executeBatch turnId acting
      (fun _ _ _ => .note rfl) _)) fun _ => ?_
    exact harness.recordBatch_tracked turnId batch rest.isEmpty _

theorem verifyBeforeDone_unaccounted : Moves Unaccounted (harness.verifyBeforeDone turnId) := by
  have routine : Routine harness Unaccounted :=
    { host := fun consults state => .of_aside (Aside.routine.host consults state)
      event := fun state event plain => .of_aside (Aside.routine.event state event plain) }
  have acting : Acting harness Unaccounted :=
    ⟨fun _ _ _ => ⟨rfl, rfl, rfl, List.prefix_rfl⟩, fun _ _ _ _ => ⟨rfl, rfl, rfl, List.prefix_rfl⟩⟩
  refine routine.verifyBeforeDone turnId acting ?_ (fun _ _ => ⟨rfl, rfl, rfl, List.prefix_rfl⟩)
    (fun state _ _ _ _ => .of_aside (.push _)) ?_ (fun _ _ => ⟨rfl, rfl, rfl, List.prefix_rfl⟩)
    (.change fun _ => ⟨rfl, rfl, rfl, List.prefix_append _ _⟩)
  · intro state check command success exitCode attempt event same
    have telling : event.kind.isRoutine = false := by rw [same]; rfl
    refine ⟨rfl, rfl, ?_, List.prefix_rfl⟩
    rw [state.record_event _ event telling, same]
    simp [EventKind.exceeded]
  · intro state
    refine ⟨rfl, ?_, rfl, List.prefix_rfl⟩
    rw [state.record_note rfl]
    simp [history, TurnNote.answers]

/-- A whole turn keeps track of its answers, unless the text of a failure is cut inside a character. -/
theorem runTurn_tracked (session : SessionState) (userMessage : String) (host : ω)
    (outcome : Except TurnStop TurnOutcome) (reached : TurnState ω)
    (ran : harness.runTurnWithState turnId session userMessage host = (outcome, reached)) :
    harness.TrackedOrCut reached := by
  have course : TurnCourse harness turnId harness.Tracked (fun _ => harness.Tracked)
      (fun _ => harness.TrackedOrCut) :=
    { opens := fun state fresh => by
        refine ⟨?_, ?_, ?_⟩ <;> rw [fresh]
        · rfl
        · rfl
        · exact nofun
      aside := fun _ _ moved tracked => tracked.kept (.of_aside moved)
      rests := fun _ _ _ moved tracked => tracked.kept (.of_aside moved)
      stops := fun _ _ tracked => .inl tracked
      calls := harness.runToolCalls_tracked turnId
      donePoint := by
        refine (Triple.of_moves (harness.verifyBeforeDone_unaccounted turnId) fun _ _ moved tracked =>
          tracked.kept moved).weaken
          (fun _ tracked => tracked) (fun phase _ tracked => ?_) fun _ _ tracked => .inl tracked
        cases phase <;> exact tracked }
  have ends := (course.runTurn userMessage).run { world := { host }, session } rfl
  rw [show exec (harness.runTurn turnId userMessage) _ = (outcome, reached) from ran] at ends
  cases outcome with
  | error stop => exact ends
  | ok done =>
    -- The event that completes the turn is about no budget.
    obtain ⟨-, -, before, iterations, usage, cost, verified, held, said, closed⟩ := ends
    have tracked : harness.Tracked before := by
      rcases held with done | ⟨-, cancelled⟩
      · exact done
      · exact cancelled
    refine .inl (tracked.kept ⟨?_, ?_, ?_, said⟩) <;> rw [closed]
    simp [EventKind.exceeded]

end AgentHarness

theorem history_record (state : TurnState ω) : history state.record.notes = history state.log := by
  refine state.flatMap_notes fun note plain => ?_
  cases note <;> first | rfl | exact nomatch plain

theorem exceeded_record (state : TurnState ω) : state.record.events.filterMap EventKind.exceeded =
      state.events.filterMap fun event => event.kind.exceeded := by
  refine state.filterMap_events fun kind plain => ?_
  cases kind <;> first | rfl | exact nomatch plain

def stubbornHarness (text : String) : AgentHarness Nat where
  codec := { parse _ := none, render _ := "" }
  tools := ToolRegistry.withTool {}
    { name := "edit", description := "", inputSchema := .null,
      execute := fun _ => return { content := .obj [("error", .string text)] } }
  permissionPolicy := allowAllPermissionPolicy
  infer _ asked :=
    (.ok { provider := "", model := "", assistantMessage := if asked = 2 then some "done" else none,
           toolCalls := if asked = 2 then [] else [{ id := "a", name := "edit", input := .obj [] }] },
      asked + 1)
  maxIterations := 3
  selfCorrect := { replanOnFailure := true, failureBudget := 1 }

def stubbornTurn (text : String) : Except TurnStop TurnOutcome × TurnState Nat :=
  (stubbornHarness text).runTurnWithState "turn" { sessionId := "session" } "go" 0

/-- The operations for which the turn of the stubborn model reports a budget that is used up. -/
def stubbornReports (text : String) : List String :=
  (stubbornTurn text).2.events.filterMap fun event => event.kind.exceeded

end Codel00p
