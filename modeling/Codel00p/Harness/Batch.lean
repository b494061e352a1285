import Codel00p.Harness.Quiet

/-! Tool calls are answered one by one, in order, and run exactly as they were decided. -/

namespace Codel00p

open Program (Triple)

theorem flatten_batches (safe : ModelToolCall → Bool) (fuel : Nat) (calls : List ModelToolCall)
    (enough : calls.length ≤ fuel) : (batches safe fuel calls).flatten = calls := by
  -- Every batch takes at least one call, so the fuel outlasts the calls.
  induction fuel generalizing calls with
  | zero => simp [batches, List.length_eq_zero_iff.1 (Nat.le_zero.1 enough)]
  | succ fuel ih =>
    cases calls with
    | nil => rfl
    | cons first rest =>
      have shorter : rest.length ≤ fuel := Nat.le_of_succ_le_succ enough
      simp only [batches, nextBatch, List.flatten_cons]
      by_cases safeFirst : safe first = true
      · have later := Nat.le_trans (List.dropWhile_sublist safe).length_le shorter
        simp [safeFirst, ih _ later]
      · simp [safeFirst, ih _ shorter]

structure CallStep where
  call : ModelToolCall
  decision : PermissionDecision
  answer : ToolAnswer

def CallStep.allowed (step : CallStep) : Bool := step.decision.allowsExecution

def deniedFrom : List (ModelToolCall × PermissionDecision) → Nat → List (Nat × ToolAnswer)
  | [], _ => []
  | (_, decision) :: rest, offset =>
    if decision.allowsExecution then deniedFrom rest (offset + 1)
    else (offset, .ok { content := decision.denial }) :: deniedFrom rest (offset + 1)

def runnableFrom : List (ModelToolCall × PermissionDecision) → Nat → List (Nat × ModelToolCall)
  | [], _ => []
  | (call, decision) :: rest, offset =>
    if decision.allowsExecution then (offset, call) :: runnableFrom rest (offset + 1)
    else runnableFrom rest (offset + 1)

/-- Move offsets along by one. -/
def shift {α : Type} (entries : List (Nat × α)) : List (Nat × α) :=
  entries.map fun (offset, entry) => (offset + 1, entry)

theorem deniedFrom_succ (decided : List (ModelToolCall × PermissionDecision)) (offset : Nat) :
    deniedFrom decided (offset + 1) = shift (deniedFrom decided offset) := by
  induction decided generalizing offset with
  | nil => rfl
  | cons first rest ih =>
    simp only [deniedFrom, ih]
    split <;> rfl

theorem runnableFrom_succ (decided : List (ModelToolCall × PermissionDecision)) (offset : Nat) :
    runnableFrom decided (offset + 1) = shift (runnableFrom decided offset) := by
  induction decided generalizing offset with
  | nil => rfl
  | cons first rest ih =>
    simp only [runnableFrom, ih]
    split <;> rfl

theorem fillSlots_shift (answers : List (Nat × ToolAnswer)) (slot : Option ToolAnswer)
    (slots : List (Option ToolAnswer)) :
    fillSlots (shift answers) (slot :: slots) = slot :: fillSlots answers slots := by
  induction answers generalizing slots with
  | nil => rfl
  | cons first rest ih =>
    simp only [fillSlots, shift, List.map_cons, List.foldl_cons, List.set_cons_succ] at ih ⊢
    exact ih _

theorem fillSlots_first (answer : ToolAnswer) (answers : List (Nat × ToolAnswer))
    (slot : Option ToolAnswer) (slots : List (Option ToolAnswer)) :
    fillSlots ((0, answer) :: answers) (slot :: slots) = fillSlots answers (some answer :: slots) :=
  rfl

theorem zip_shift (runnable : List (Nat × ModelToolCall)) (answers : List ToolAnswer) :
    ((shift runnable).map (·.1)).zip answers = shift ((runnable.map (·.1)).zip answers) := by
  induction runnable generalizing answers with
  | nil => rfl
  | cons first rest ih =>
    cases answers with
    | nil => rfl
    | cons answer answers => exact congrArg _ (ih answers)

structure StepsOf (batch : List ModelToolCall) (steps : List CallStep) : Prop where
  calls : steps.map (·.call) = batch
  denied : ∀ step ∈ steps, step.allowed = false →
    step.answer = .ok { content := step.decision.denial }

theorem StepsOf.append {first second : List ModelToolCall} {steps later : List CallStep}
    (own : StepsOf first steps) (next : StepsOf second later) : StepsOf (first ++ second) (steps ++ later) where
  calls := by rw [List.map_append, own.calls, next.calls]
  denied step member := (List.mem_append.1 member).elim (own.denied step) (next.denied step)

def answered (steps : List CallStep) : List (ModelToolCall × ToolAnswer) :=
  steps.map fun step => (step.call, step.answer)

/-- The answers fall to the calls that were allowed, and every other call is answered with its denial. -/
theorem exists_answers (decided : List (ModelToolCall × PermissionDecision)) (answers : List ToolAnswer)
    (enough : answers.length = (runnableFrom decided 0).length) :
    ∃ steps, StepsOf (decided.map (·.1)) steps ∧ decided = steps.map (fun step => (step.call, step.decision)) ∧
      ((runnableFrom decided 0).map (·.2)).zip answers = answered (steps.filter CallStep.allowed) ∧
      fillSlots (((runnableFrom decided 0).map (·.1)).zip answers)
          (fillSlots (deniedFrom decided 0) (List.replicate decided.length none)) =
        steps.map fun step => some step.answer := by
  induction decided generalizing answers with
  | nil => exact ⟨[], ⟨rfl, nofun⟩, rfl, rfl, rfl⟩
  | cons first rest ih =>
    obtain ⟨call, decision⟩ := first
    have unshifted : (shift (runnableFrom rest 0)).map (·.2) = (runnableFrom rest 0).map (·.2) := by
      simp [shift]
    simp only [runnableFrom, runnableFrom_succ, deniedFrom, deniedFrom_succ, List.length_cons,
      List.replicate_succ] at enough ⊢
    by_cases allowed : decision.allowsExecution = true
    · simp only [allowed, if_true, List.map_cons, unshifted] at enough ⊢
      cases answers with
      | nil => simp at enough
      | cons answer answers =>
        obtain ⟨steps, own, same, zipped, slots⟩ := ih answers (by simpa [shift] using enough)
        have kept : CallStep.allowed { call, decision, answer } = true := allowed
        refine ⟨{ call, decision, answer } :: steps, ⟨congrArg (_ :: ·) own.calls, List.forall_mem_cons.2
          ⟨fun refused => absurd (refused.symm.trans kept) Bool.false_ne_true, own.denied⟩⟩, congrArg (_ :: ·) same, ?_, ?_⟩
        · rw [List.filter_cons_of_pos kept, List.zip_cons_cons, zipped]
          rfl
        · -- The denials leave the first slot open, and the first answer fills it.
          rw [List.zip_cons_cons, zip_shift, fillSlots_shift, fillSlots_first, fillSlots_shift, slots, List.map_cons]
    · simp only [allowed, Bool.false_eq_true, if_false, unshifted] at enough ⊢
      obtain ⟨steps, own, same, zipped, slots⟩ := ih answers (by simpa [shift] using enough)
      refine ⟨{ call, decision, answer := .ok { content := decision.denial } } :: steps, ⟨congrArg (_ :: ·) own.calls,
        List.forall_mem_cons.2 ⟨fun _ => rfl, own.denied⟩⟩, congrArg (_ :: ·) same, ?_, ?_⟩
      · rw [List.filter_cons_of_neg (by exact allowed), zipped]
      · -- The denial fills the first slot, and no answer is for it.
        rw [fillSlots_first, fillSlots_shift, zip_shift, fillSlots_shift, slots, List.map_cons]

theorem allowed_of_runnable {decided : List (ModelToolCall × PermissionDecision)} {offset : Nat}
    {call : ModelToolCall} (member : call ∈ (runnableFrom decided offset).map (·.2)) :
    ∃ decision, (call, decision) ∈ decided ∧ decision.allowsExecution = true := by
  induction decided generalizing offset with
  | nil => simp [runnableFrom] at member
  | cons first rest ih =>
    obtain ⟨other, decision⟩ := first
    by_cases allowed : decision.allowsExecution = true
    · simp only [runnableFrom, allowed, if_true, List.map_cons, List.mem_cons] at member
      rcases member with rfl | later
      · exact ⟨decision, List.mem_cons_self, allowed⟩
      · obtain ⟨found, inside, may⟩ := ih later
        exact ⟨found, List.mem_cons_of_mem _ inside, may⟩
    · simp only [runnableFrom, allowed, Bool.false_eq_true, if_false] at member
      obtain ⟨found, inside, may⟩ := ih member
      exact ⟨found, List.mem_cons_of_mem _ inside, may⟩

namespace AgentHarness

variable {ω : Type} (harness : AgentHarness ω) (turnId : String)

theorem judge_spec (kept : TurnCore ω → Prop)
    (judged : List (ModelToolCall × Except HarnessError PermissionDecision)) (offset : Nat) :
    Triple (Meets kept) (harness.judge turnId judged offset) (fun sorted state => Meets kept state ∧ ∃ decided,
        judged = decided.map (fun pair => (pair.1, .ok pair.2)) ∧
        sorted = (deniedFrom decided offset, runnableFrom decided offset))
      (fun stop state => Meets kept state ∧ ∃ call error, (call, .error error) ∈ judged ∧ stop = .failed error) := by
  induction judged generalizing offset with
  | nil => exact .pure _ fun _ holds => ⟨holds, [], rfl, rfl⟩
  | cons first rest ih =>
    obtain ⟨call, outcome⟩ := first
    -- A decision that is missing further on is missing here too.
    have later := fun offset => (ih offset).stopping
      (fun stop state (missing : Meets kept state ∧ _) => show Meets kept state ∧ ∃ call' error,
        (call', .error error) ∈ (call, outcome) :: rest ∧ stop = .failed error by
        obtain ⟨holds, other, error, member, same⟩ := missing
        exact ⟨holds, other, error, List.mem_cons_of_mem _ member, same⟩)
    cases outcome with
    | error error =>
      exact .stop _ fun _ holds => ⟨holds, call, error, List.mem_cons_self, rfl⟩
    | ok decision =>
      refine .pass decision (.ite (fun allowed => ?_) fun allowed => ?_)
      · refine .bind (later (offset + 1)) fun sorted => .pure _ ?_
        rintro state ⟨holds, decided, rfl, rfl⟩
        exact ⟨holds, (call, decision) :: decided, rfl, by simp [deniedFrom, runnableFrom, allowed]⟩
      · refine silently_bind (recordEvent_silent harness turnId _) fun _ => ?_
        refine .bind (later (offset + 1)) fun sorted => .pure _ ?_
        rintro state ⟨holds, decided, rfl, rfl⟩
        exact ⟨holds, (call, decision) :: decided, rfl, by simp [deniedFrom, runnableFrom, allowed]⟩

theorem decideBatch_spec (kept : List (ModelToolCall × Except HarnessError PermissionDecision) →
      TurnCore ω → Prop) (batch : List ModelToolCall) (stopped : TurnStop → TurnState ω → Prop)
    (step : ∀ done call outcome core, kept done core → kept (done ++ [(call, outcome)]) { core with
      trace := core.trace ++ [.decided (.model call.id)
        (harness.permissionRequest turnId core.session.sessionId call) outcome] }) :
    Triple (Meets (kept [])) (harness.decideBatch turnId batch)
      (fun outcomes state => outcomes.length = batch.length ∧ Meets (kept (batch.zip outcomes)) state)
      stopped := by
  refine silently_bind (.forM fun _ _ => recordEvent_silent harness turnId _) fun _ => ?_
  refine silently_bind (.reads _) fun _ => ?_
  refine silently_bind (.forM fun _ _ => recordEvent_silent harness turnId _) fun _ => ?_
  refine .mapM (fun done => Meets (kept done)) batch (fun done call _ => .perform ?_) []
  intro state holds
  exact step done call _ state.core holds

theorem executeBatch_spec (parts : GovernedTools harness.tools)
    (kept : List (ModelToolCall × ToolAnswer) → TurnCore ω → Prop) (calls : List ModelToolCall)
    (stopped : TurnStop → TurnState ω → Prop) (step : ∀ done answer core reached, ∀ call ∈ calls, kept done core →
      Ran (harness.tools.handed harness.codec call.name call.input) (.model call.id) call.name call.input
        core.trace reached → kept (done ++ [(call, answer)])
        { core with trace := reached, log := core.log ++ [.returned call answer] }) :
    Triple (Meets (kept [])) (harness.executeBatch turnId calls)
      (fun answers state => answers.length = calls.length ∧ Meets (kept (calls.zip answers)) state)
      stopped := by
  refine silently_bind (.forM fun _ _ => recordEvent_silent harness turnId _) fun _ => ?_
  refine .mapM (fun done => Meets (kept done)) calls (fun done call member => .perform ?_) []
  intro state holds
  exact step done _ state.core _ call member holds
    (execute_ran harness.codec parts (.model call.id) call.name call.input state.world)

/-- A call earns a nudge whose text would be cut inside a character. -/
def CutsNudge (call : ModelToolCall) : Prop :=
  ∃ tracker content, harness.trips tracker call content = true ∧
    replanNudge (operationSignature call.name call.input)
      (tracker.streak (operationSignature call.name call.input) + 1)
      (failureMessage harness.codec content) harness.planning = none

theorem accountFailure_spec (kept : TurnCore ω → Prop)
    (blind : ∀ core failures, kept core → kept { core with failures })
    (stopped : TurnStop → TurnState ω → Prop) (call : ModelToolCall)
    (panics : ∀ state, Meets kept state → harness.CutsNudge call → stopped .panicked state)
    (content : Json) (tracker : FailureTracker) : Triple (Meets fun core => kept core ∧ core.failures = tracker)
      (harness.accountFailure turnId call content) (fun nudge => Meets fun core => kept core ∧
        core.failures = harness.trackerAfter tracker call content ∧
        (nudge.isSome → harness.trips tracker call content = true)) stopped := by
  refine .reads_bind fun seen => ?_
  refine .change_bind (Meets fun core => kept core ∧
    core.failures = harness.trackerAfter tracker call content ∧ seen = tracker) ?_ ?_
  · rintro state ⟨⟨holds, same⟩, read⟩
    have own : seen = tracker := read.symm.trans same
    exact ⟨blind _ _ holds, by rw [own]; rfl, own⟩
  refine .ite (fun trips => ?_) fun _ => .pure _ ?_
  · refine silently_bind (recordEvent_silent harness turnId _) fun _ => ?_
    -- The text of the nudge is cut at a byte, which panics inside a character.
    split
    · next cut => exact .throw _ fun state ⟨holds, _⟩ => panics state holds ⟨seen, content, trips, cut⟩
    · refine .pure _ ?_
      rintro state ⟨holds, moved, rfl⟩
      exact ⟨holds, moved, fun _ => trips⟩
  · rintro state ⟨holds, moved, _⟩
    exact ⟨holds, moved, nofun⟩

def recordOf (call : ModelToolCall) (answer : ToolAnswer) : ExecutedToolCall :=
  { id := call.id, name := call.name, input := call.input, result := harness.settledResult call answer }

def settled (call : ModelToolCall) (answer : ToolAnswer) (content : String) (core : TurnCore ω) :
    TurnCore ω :=
  { core with
    session := core.session.pushMessage (.toolResult call.id call.name content),
    log := core.log ++ [.recorded call.id content],
    executed := core.executed ++ [harness.recordOf call answer] }

theorem settleCall_spec (kept next : TurnCore ω → Prop)
    (blind : ∀ core failures, kept core → kept { core with failures })
    (stopped : TurnStop → TurnState ω → Prop) (call : ModelToolCall)
    (panics : ∀ state, Meets kept state → harness.CutsNudge call → stopped .panicked state)
    (answer : ToolAnswer) (tracker : FailureTracker)
    (step : ∀ core content, kept core → next (harness.settled call answer content core)) :
    Triple (Meets fun core => kept core ∧ core.failures = tracker) (harness.settleCall turnId call answer)
      (fun nudge => Meets fun core => next core ∧
        core.failures = harness.trackerAfter tracker call (plainResult answer).content ∧
        (nudge.isSome → harness.trips tracker call (plainResult answer).content = true)) stopped := by
  refine silently_bind (Quiet.routine.reportAnswer turnId call answer) fun _ => ?_
  refine .bind (accountFailure_spec harness turnId kept blind stopped call panics _ tracker) fun nudge => ?_
  refine silently_bind (Quiet.routine.withHost (.truncateOutput _ _)) fun content => ?_
  -- The hook runs between the message and the record, so the record is still owed while it does.
  refine .change_bind (Meets fun core =>
    next { core with executed := core.executed ++ [harness.recordOf call answer] } ∧
      core.failures = harness.trackerAfter tracker call (plainResult answer).content ∧
      (nudge.isSome → harness.trips tracker call (plainResult answer).content = true)) ?_ ?_
  · rintro state ⟨holds, rest⟩
    exact ⟨step state.core content holds, rest⟩
  refine silently_bind (Quiet.routine.runLifecycleHook turnId _) fun _ => ?_
  exact .bind (.change fun state holds => holds) fun _ => .pure _ fun _ holds => holds

theorem settleAll_spec (kept : List (ModelToolCall × ToolAnswer) → TurnCore ω → Prop)
    (blind : ∀ pairs core failures, kept pairs core → kept pairs { core with failures })
    (stopped : TurnStop → TurnState ω → Prop)
    (panics : ∀ call answer rest state, Meets (kept ((call, answer) :: rest)) state →
      harness.CutsNudge call → stopped .panicked state)
    (step : ∀ call answer rest core content, kept ((call, answer) :: rest) core →
      kept rest (harness.settled call answer content core))
    (pairs : List (ModelToolCall × ToolAnswer)) (tracker : FailureTracker) :
    Triple (Meets fun core => kept pairs core ∧ core.failures = tracker) (harness.settleAll turnId pairs)
      (fun nudges => Meets fun core => kept [] core ∧
        (nudges ≠ [] → harness.anyTrips tracker pairs = true)) stopped := by
  induction pairs generalizing tracker with
  | nil => exact .pure _ fun _ ⟨holds, _⟩ => ⟨holds, fun wrong => absurd rfl wrong⟩
  | cons first rest ih =>
    obtain ⟨call, answer⟩ := first
    refine .bind (settleCall_spec harness turnId _ (kept rest) (blind _) stopped call
      (panics call answer rest) answer tracker (step call answer rest)) fun nudge => ?_
    -- What the first nudge means depends on no state, so it outlasts the rest of the batch.
    refine .knowing (fun state holds => holds.2.2) fun trips => ?_
    refine .bind ((ih _).starting (fun _ ⟨holds, moved, _⟩ => ⟨holds, moved⟩)) fun nudges => .pure _ ?_
    rintro state ⟨holds, later⟩
    refine ⟨holds, fun some => ?_⟩
    cases nudge with
    | some text => simp [anyTrips, trips rfl]
    | none => simp [anyTrips, later (by simpa using some)]

def noteOf (batch : List ModelToolCall) (last : Bool) (tracker : FailureTracker)
    (steps : List CallStep) : BatchNote :=
  { calls := batch, last, failures := tracker, slots := steps.map fun step => some step.answer }

variable {batch : List ModelToolCall} {steps : List CallStep} {last : Bool} {stopped : TurnStop → TurnState ω → Prop}

theorem zip_answers (own : StepsOf batch steps) :
    batch.zip ((steps.map fun step => some step.answer).map (·.getD notScheduled)) = answered steps := by
  simp [answered, ← own.calls, Function.comp_def, List.zip_map']

/--
What holds while a batch is decided on, executed, and recorded,
with the reasons why each step of the batch keeps it.
-/
structure BatchInvariant (batch : List ModelToolCall) (last : Bool)
    (stopped : TurnStop → TurnState ω → Prop) where
  /-- What holds when some calls have been decided on. -/
  deciding : List (ModelToolCall × Except HarnessError PermissionDecision) → TurnCore ω → Prop
  /-- What holds when all calls have been decided on and some of them have run. -/
  executing : List (ModelToolCall × PermissionDecision) → List (ModelToolCall × ToolAnswer) → TurnCore ω → Prop
  /-- What holds when all calls have been answered and some answers are still to be recorded. -/
  settling : List CallStep → FailureTracker → List (ModelToolCall × ToolAnswer) → TurnCore ω → Prop
  decides : ∀ done call outcome core, deciding done core → deciding (done ++ [(call, outcome)])
    { core with trace := core.trace ++ [.decided (.model call.id)
      (harness.permissionRequest turnId core.session.sessionId call) outcome] }
  fails : ∀ done state, ∀ call ∈ batch, ∀ error, (call, .error error) ∈ done →
    Meets (deciding done) state → stopped (.failed error) state
  judges : ∀ decided core, decided.map (·.1) = batch →
    deciding (decided.map fun pair => (pair.1, .ok pair.2)) core → executing decided [] core
  executes : ∀ decided done call decision answer core reached, (call, decision) ∈ decided →
    decision.allowsExecution = true → executing decided done core →
    Ran (harness.tools.handed harness.codec call.name call.input) (.model call.id) call.name call.input
      core.trace reached →
    executing decided (done ++ [(call, answer)])
      { core with trace := reached, log := core.log ++ [.returned call answer] }
  notes : ∀ steps core, StepsOf batch steps →
    executing (steps.map fun step => (step.call, step.decision)) (answered (steps.filter CallStep.allowed)) core →
    settling steps core.failures (answered steps)
      { core with log := core.log ++ [.batch (noteOf batch last core.failures steps)] }
  blind : ∀ steps tracker rest core failures, settling steps tracker rest core →
    settling steps tracker rest { core with failures }
  panics : ∀ steps tracker rest state, Meets (settling steps tracker rest) state →
    ∀ call ∈ batch, harness.CutsNudge call → stopped .panicked state
  settles : ∀ steps tracker call answer rest core content,
    settling steps tracker ((call, answer) :: rest) core →
    settling steps tracker rest (harness.settled call answer content core)
  nudges : ∀ steps tracker text core, StepsOf batch steps →
    harness.anyTrips tracker (answered steps) = true → settling steps tracker [] core →
    settling steps tracker [] { core with session := core.session.pushMessage (.user text) }

section

variable (kept : harness.BatchInvariant turnId batch last stopped)

include kept

theorem BatchInvariant.settleAll_keeps (own : StepsOf batch steps) (tracker : FailureTracker) : Triple
      (Meets fun core => kept.settling steps tracker (answered steps) core ∧ core.failures = tracker)
      (harness.settleAll turnId (answered steps))
      (fun nudges => Meets fun core => kept.settling steps tracker [] core ∧
        (nudges ≠ [] → harness.anyTrips tracker (answered steps) = true)) stopped := by
  -- A nudge that is cut belongs to a call of the batch.
  have inside : ∀ pair ∈ answered steps, pair.1 ∈ batch := by
    intro pair member
    obtain ⟨step, within, rfl⟩ := List.mem_map.1 member
    rw [← own.calls]
    exact List.mem_map_of_mem within
  refine (settleAll_spec harness turnId (fun rest core => kept.settling steps tracker rest core ∧
    ∀ pair ∈ rest, pair.1 ∈ batch) ?_ stopped ?_ ?_ (answered steps) tracker).weaken
    (fun _ holds => ⟨⟨holds.1, inside⟩, holds.2⟩) (fun _ _ holds => ⟨holds.1.1, holds.2⟩)
    fun _ _ holds => holds
  · rintro rest core failures ⟨settles, calls⟩
    exact ⟨kept.blind steps tracker rest core failures settles, calls⟩
  · rintro call answer rest state ⟨settles, calls⟩
    exact kept.panics steps tracker _ state settles call (calls _ List.mem_cons_self)
  · rintro call answer rest core content ⟨settles, calls⟩
    exact ⟨kept.settles steps tracker call answer rest core content settles,
      fun pair member => calls pair (List.mem_cons_of_mem _ member)⟩

theorem BatchInvariant.recordBatch_keeps
    (own : StepsOf batch steps) : Triple (Meets (kept.executing (steps.map fun step => (step.call, step.decision))
        (answered (steps.filter CallStep.allowed))))
      (harness.recordBatch turnId batch last (steps.map fun step => some step.answer))
      (fun _ => Meets fun core => ∃ tracker, kept.settling steps tracker [] core) stopped := by
  -- The streaks at the start of the recording decide which calls earn a nudge.
  refine .each fun state holds => .change_bind (Meets fun core =>
    kept.settling steps state.failures (answered steps) core ∧ core.failures = state.failures) ?_ ?_
  · rintro _ rfl
    exact ⟨kept.notes steps _ own holds, rfl⟩
  rw [zip_answers own]
  refine .bind (kept.settleAll_keeps harness turnId own state.failures) fun nudges => ?_
  refine .knowing (fun _ holds => holds.2) fun tripped => ?_
  refine (Triple.forM (fun rest => Meets fun core =>
    kept.settling steps state.failures [] core ∧ (rest ≠ [] → nudges ≠ [])) ?_ nudges).weaken
    (fun _ holds => ⟨holds.1, id⟩) (fun _ _ holds => ⟨_, holds.1⟩) (fun _ _ holds => holds)
  refine fun text rest => .change fun reached ⟨settles, left⟩ => ⟨?_, fun _ => left (by simp)⟩
  exact kept.nudges steps state.failures text _ own (tripped (left (by simp))) settles

theorem BatchInvariant.runBatch_keeps
    (parts : GovernedTools harness.tools) : Triple (Meets (kept.deciding [])) (harness.runBatch turnId batch last)
      (fun _ => Meets fun core => ∃ steps tracker, StepsOf batch steps ∧ kept.settling steps tracker [] core)
      stopped := by
  refine .bind (decideBatch_spec harness turnId kept.deciding batch _ kept.decides) fun outcomes => ?_
  refine .knowing (fun _ holds => holds.1) fun sameLength => ?_
  refine .bind ((judge_spec harness turnId _ _ 0).weaken (fun _ holds => holds.2) (fun _ _ holds => holds)
    ?_) fun sorted => ?_
  · rintro stop state ⟨holds, call, error, member, rfl⟩
    exact kept.fails _ state call (List.of_mem_zip member).1 error member holds
  refine .knowing (fun _ holds => holds.2) ?_
  rintro ⟨decided, judged, rfl⟩
  have calls : decided.map (·.1) = batch := by
    rw [← List.map_fst_zip (Nat.le_of_eq sameLength.symm), judged, List.map_map]
    rfl
  -- From here on every call has a decision, and only the allowed ones run.
  refine .bind ((executeBatch_spec harness turnId parts (kept.executing decided) _ stopped ?_).starting
    (fun state holds => ?_)) fun answers => ?_
  · intro done answer core reached call member holds ran
    obtain ⟨decision, inside, allowed⟩ := allowed_of_runnable member
    exact kept.executes decided done call decision answer core reached inside allowed holds ran
  · exact kept.judges decided _ calls (judged ▸ holds.1)
  refine .knowing (fun _ holds => holds.1) fun enough => ?_
  obtain ⟨steps, own, rfl, ran, slots⟩ := exists_answers decided answers (by simpa using enough)
  rw [calls] at own
  rw [← List.length_map (·.1), calls] at slots
  rw [slots, ran]
  exact (kept.recordBatch_keeps harness turnId own).weaken (fun _ holds => holds.2)
    (fun _ _ ⟨tracker, holds⟩ => ⟨steps, tracker, own, holds⟩) fun _ _ holds => holds

end

end AgentHarness

end Codel00p
