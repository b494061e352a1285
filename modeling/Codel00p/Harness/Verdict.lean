import Codel00p.Harness.Course
import Codel00p.Harness.Protocol

/-! What the verdict of a turn is worth: which checks stand behind it, and what was done after them. -/

namespace Codel00p

open Program (exec Triple)

variable {ω : Type}

/-- What the harness knew when the model said that it was done. -/
structure DonePoint (ω : Type) where
  verify : VerifyState
  executed : List ExecutedToolCall
  host : ω

def TurnNote.points : TurnNote ω → List (DonePoint ω)
  | .donePoint verify executed host => [{ verify, executed, host }]
  | _ => []

def donePoints (notes : List (TurnNote ω)) : List (DonePoint ω) := notes.flatMap TurnNote.points

theorem donePoints_record (state : TurnState ω) : donePoints state.record.notes = donePoints state.log := by
  refine state.flatMap_notes fun note plain => ?_
  cases note <;> first | rfl | exact nomatch plain

def EventKind.isVerdict : EventKind → Bool
  | .verificationCompleted .. | .turnCompleted .. => true
  | _ => false

theorem turnMutated_of_drop {executed : List ExecutedToolCall} {count : Nat}
    (mutated : turnMutated (executed.drop count) = true) : turnMutated executed = true := by
  simp only [turnMutated, List.any_eq_true] at mutated ⊢
  obtain ⟨call, member, changes⟩ := mutated
  exact ⟨call, List.mem_of_mem_drop member, changes⟩

namespace AgentHarness

variable (harness : AgentHarness ω) (turnId : String)

def due (point : DonePoint ω) : Bool := harness.verificationDue point.verify point.executed point.host

def Runnable (check : String) : Prop :=
  ∀ world, ∃ result, (exec (harness.tools.execute harness.codec .verification "run_checks"
    (harness.checkInput check)) world).1 = .ok result

/--
Some done-points at which verification does what it is for: when checks are due one of them can be run,
and when there is more work since the checks passed, there is an attempt left and there are checks to run.
-/
structure Diligent (points : List (DonePoint ω)) : Prop where
  runnable : ∀ point ∈ points, harness.due point = true → ∃ check ∈ harness.dueChecks point.host,
    harness.Runnable check
  again : ∀ point ∈ points, ∀ earlier ∈ points, harness.due earlier = true →
    point.verify.lastVerified = some true → point.verify.attempts = earlier.verify.attempts + 1 →
    turnMutated (point.executed.drop earlier.executed.length) = true →
      point.verify.attempts < harness.verify.verifyIterations ∧ harness.dueChecks point.host ≠ []

variable {harness} in
theorem Diligent.of_append {points later : List (DonePoint ω)} (diligent : harness.Diligent (points ++ later)) :
    harness.Diligent points where
  runnable point member := diligent.runnable point (List.mem_append_left _ member)
  again point member earlier before :=
    diligent.again point (List.mem_append_left _ member) earlier (List.mem_append_left _ before)

/-- The checks of a done-point stand behind a record: they were the last ones, one passed, and none failed. -/
structure Backs (point : DonePoint ω) (record : TurnRecord ω) : Prop where
  noted : point ∈ donePoints record.notes
  due : harness.due point = true
  attempts : record.attempts = point.verify.attempts + 1
  work : point.executed <+: record.executed
  succeeded : ∃ check ∈ harness.dueChecks point.host, ∃ command exitCode,
    .verificationCompleted check command true exitCode record.attempts ∈ record.events
  unfailed : ∀ check command success exitCode,
    .verificationCompleted check command success exitCode record.attempts ∈ record.events → success = true

/-- What every record of a turn keeps to: attempts are counted, and no verdict has been given yet. -/
structure Orderly (record : TurnRecord ω) : Prop where
  bounded : ∀ check command success exitCode attempt,
    .verificationCompleted check command success exitCode attempt ∈ record.events → attempt ≤ record.attempts
  incomplete : ∀ iterations usage cost verified, .turnCompleted iterations usage cost verified ∉ record.events
  critiqued : record.critiqueInjected = true → record.executedAtCritique ≤ record.executed.length

/-- Between iterations: passed checks stand behind the record, and the critique came before or with them. -/
structure Sound (record : TurnRecord ω) : Prop extends Orderly record where
  passed : record.lastVerified = some true → ∃ point, harness.Backs point record ∧
    (record.critiqueInjected = true → record.executedAtCritique ≤ point.executed.length) ∧
    (harness.verify.selfCritique = true → record.critiqueInjected = true)

/-- After the checks of a done-point: nothing has been changed since those that passed. -/
structure Settled (record : TurnRecord ω) : Prop extends Orderly record where
  passed : record.lastVerified = some true → ∃ point, harness.Backs point record ∧
    turnMutated (record.executed.drop point.executed.length) = false ∧
    (record.critiqueInjected = true → record.executedAtCritique ≤ point.executed.length) ∧
    (harness.verify.selfCritique = true → record.critiqueInjected = true ∨ point.executed = record.executed)

/-- The verdict of a record is backed by checks after which nothing was changed. -/
def Warranted (record : TurnRecord ω) : Prop :=
  ∃ point, harness.Backs point record ∧ turnMutated (record.executed.drop point.executed.length) = false

/-! ### Tool calls -/

/-- Calls have been executed, and nothing else has happened that a verdict depends on. -/
structure Worked (state reached : TurnState ω) : Prop where
  attempts : reached.record.attempts = state.record.attempts
  injected : reached.record.critiqueInjected = state.record.critiqueInjected
  atCritique : reached.record.executedAtCritique = state.record.executedAtCritique
  verdict : reached.record.lastVerified = state.record.lastVerified
  points : donePoints reached.record.notes = donePoints state.record.notes
  executed : state.record.executed <+: reached.record.executed
  events : ∀ kind, kind.isVerdict = true → (kind ∈ reached.record.events ↔ kind ∈ state.record.events)

instance : Std.Refl (Worked (ω := ω)) where
  refl _ := ⟨rfl, rfl, rfl, rfl, rfl, List.prefix_rfl, fun _ _ => .rfl⟩

instance : IsTrans (TurnState ω) Worked where
  trans _ _ _ first second :=
    { attempts := second.attempts.trans first.attempts
      injected := second.injected.trans first.injected
      atCritique := second.atCritique.trans first.atCritique
      verdict := second.verdict.trans first.verdict
      points := second.points.trans first.points
      executed := first.executed.trans second.executed
      events := fun kind verdict => (second.events kind verdict).trans (first.events kind verdict) }

namespace Worked

variable {harness : AgentHarness ω} {state reached : TurnState ω}

theorem of_aside (moved : Aside state reached) : Worked state reached where
  attempts := moved.record ▸ rfl
  injected := moved.record ▸ rfl
  atCritique := moved.record ▸ rfl
  verdict := moved.record ▸ rfl
  points := moved.record ▸ rfl
  executed := moved.record ▸ List.prefix_rfl
  events _ _ := moved.record ▸ .rfl

theorem working {harness : AgentHarness ω} : Working harness Worked where
  host consults state := .of_aside (Aside.routine.host consults state)
  event state event plain := .of_aside (Aside.routine.event state event plain)
  asked _ _ _ := ⟨rfl, rfl, rfl, rfl, rfl, List.prefix_rfl, fun _ _ => .rfl⟩
  ran _ _ _ _ := ⟨rfl, rfl, rfl, rfl, rfl, List.prefix_rfl, fun _ _ => .rfl⟩
  returned _ _ _ := .of_aside (.note rfl)
  batch state note := by
    refine ⟨rfl, rfl, rfl, rfl, ?_, List.prefix_rfl, fun _ _ => .rfl⟩
    rw [state.record_note rfl]
    simp [donePoints, TurnNote.points]
  failures _ _ := ⟨rfl, rfl, rfl, rfl, rfl, List.prefix_rfl, fun _ _ => .rfl⟩
  exceeded state operation attempts errorKind event same := by
    have telling : event.kind.isRoutine = false := by rw [same]; rfl
    refine ⟨rfl, rfl, rfl, rfl, rfl, List.prefix_rfl, fun kind verdict => ?_⟩
    rw [state.record_event _ event telling, same, List.mem_append, List.mem_singleton]
    -- A budget that is used up is no verdict.
    refine or_iff_left ?_
    rintro rfl
    exact nomatch verdict
  recorded _ _ _ _ := .of_aside (IsTrans.trans _ _ _ (.push _) (.note rfl))
  executed _ _ := ⟨rfl, rfl, rfl, rfl, rfl, List.prefix_append _ _, fun _ _ => .rfl⟩
  nudge _ _ _ _ _ _ _ := .of_aside (.push _)

section

variable (worked : Worked state reached)

include worked

theorem backs {point : DonePoint ω} (backs : harness.Backs point state.record) :
    harness.Backs point reached.record where
  noted := worked.points ▸ backs.noted
  due := backs.due
  attempts := worked.attempts.trans backs.attempts
  work := backs.work.trans worked.executed
  succeeded := by
    obtain ⟨check, configured, command, exitCode, reported⟩ := backs.succeeded
    exact ⟨check, configured, command, exitCode, (worked.events _ rfl).2 (worked.attempts ▸ reported)⟩
  unfailed check command success exitCode reported :=
    backs.unfailed check command success exitCode (worked.attempts ▸ (worked.events _ rfl).1 reported)

theorem orderly (orderly : Orderly state.record) : Orderly reached.record where
  bounded check command success exitCode attempt reported :=
    worked.attempts ▸ orderly.bounded check command success exitCode attempt ((worked.events _ rfl).1 reported)
  incomplete iterations usage cost verified reported :=
    orderly.incomplete iterations usage cost verified ((worked.events _ rfl).1 reported)
  critiqued injected := by
    rw [worked.atCritique]
    exact (orderly.critiqued (worked.injected ▸ injected)).trans worked.executed.length_le

theorem sound (sound : harness.Sound state.record) : harness.Sound reached.record := by
  refine { worked.orderly sound.toOrderly with passed := fun passed => ?_ }
  obtain ⟨point, backs, before, critiqued⟩ := sound.passed (worked.verdict ▸ passed)
  refine ⟨point, worked.backs backs, fun injected => ?_, fun wanted => ?_⟩
  · rw [worked.atCritique]
    exact before (worked.injected ▸ injected)
  · rw [worked.injected]
    exact critiqued wanted

end

end Worked

/-! ### Done-points -/

/-- A record holds what the state that it belongs to knows. -/
def knows (point : DonePoint ω) (record : TurnRecord ω) : Prop :=
  point.verify.attempts = record.attempts ∧ point.verify.lastVerified = record.lastVerified ∧
    point.verify.critiqueInjected = record.critiqueInjected ∧
    point.verify.executedAtCritique = record.executedAtCritique ∧ point.executed = record.executed

variable {harness} in
/-- At a done-point without checks there has been no change since the last checks passed. -/
theorem Sound.settled {record : TurnRecord ω} (sound : harness.Sound record)
    (diligent : harness.Diligent (donePoints record.notes)) {point : DonePoint ω}
    (noted : point ∈ donePoints record.notes) (known : knows point record)
    (undue : harness.due point = false) : harness.Settled record := by
  obtain ⟨attempts, verdict, injected, atCritique, executed⟩ := known
  refine { sound.toOrderly with passed := fun passed => ?_ }
  obtain ⟨earlier, backs, before, critiqued⟩ := sound.passed passed
  refine ⟨earlier, backs, ?_, before, fun wanted => .inl (critiqued wanted)⟩
  rw [← Bool.not_eq_true]
  intro mutated
  -- Had there been a change, checks would have been due.
  obtain ⟨left, present⟩ := diligent.again point noted earlier backs.noted backs.due (verdict.trans passed)
    (attempts.trans backs.attempts) (executed ▸ mutated)
  have configured : harness.verify.selfVerify = true := by
    have was := backs.due
    simp only [AgentHarness.due, verificationDue, entersVerification, Bool.and_eq_true] at was
    exact was.1.1.1.1
  have longer : earlier.executed.length < record.executed.length := by
    by_contra short
    rw [List.drop_eq_nil_of_le (by omega)] at mutated
    cases mutated
  have added : reflectionAddedWork point.verify point.executed = true := by
    rw [reflectionAddedWork, injected, atCritique, executed]
    cases asked : record.critiqueInjected with
    | false => rfl
    | true =>
      have := before asked
      simp
      omega
  have changed : turnMutated point.executed = true := executed ▸ turnMutated_of_drop mutated
  have due : harness.due point = true := by
    simp [AgentHarness.due, verificationDue, entersVerification, configured, added, changed, left, present]
  exact Bool.false_ne_true (undue.symm.trans due)

structure Checking (point : DonePoint ω) (left : List String) (record : TurnRecord ω) : Prop
    extends Orderly record where
  noted : point ∈ donePoints record.notes
  due : harness.due point = true
  attempts : record.attempts = point.verify.attempts + 1
  work : record.executed = point.executed
  configured : ∀ check ∈ left, check ∈ harness.dueChecks point.host
  unfailed : ∀ check command success exitCode,
    .verificationCompleted check command success exitCode record.attempts ∈ record.events → success = true
  succeeds : (∃ check ∈ harness.dueChecks point.host, ∃ command exitCode,
      .verificationCompleted check command true exitCode record.attempts ∈ record.events) ∨
    ∃ check ∈ left, harness.Runnable check

namespace Checking

variable {harness} {point : DonePoint ω} {check : String} {left : List String} {record : TurnRecord ω}

section

variable (checking : harness.Checking point (check :: left) record)

include checking

theorem skip (stuck : ¬harness.Runnable check) : harness.Checking point left record := by
  refine { checking with configured := fun other member => ?_, succeeds := ?_ }
  · exact checking.configured other (List.mem_cons_of_mem _ member)
  · refine checking.succeeds.imp_right ?_
    rintro ⟨other, member, runs⟩
    rcases List.mem_cons.1 member with rfl | later
    · exact absurd runs stuck
    · exact ⟨other, later, runs⟩

theorem report (command : String) (success : Bool)
    (exitCode : Option Int) : Orderly { record with events := record.events ++
      [.verificationCompleted check command success exitCode record.attempts] } := by
  refine ⟨?_, ?_, checking.critiqued⟩
  · intro other command success exitCode attempt reported
    rcases List.mem_append.1 reported with old | new
    · exact checking.bounded other command success exitCode attempt old
    · cases List.mem_singleton.1 new
      exact Nat.le_refl _
  · intro iterations usage cost verified reported
    rcases List.mem_append.1 reported with old | new
    · exact checking.incomplete iterations usage cost verified old
    · exact nomatch List.mem_singleton.1 new

theorem pass (command : String) (exitCode : Option Int) :
    harness.Checking point left { record with events := record.events ++
      [.verificationCompleted check command true exitCode record.attempts] } := by
  refine { checking.report command true exitCode with
    noted := checking.noted, due := checking.due, attempts := checking.attempts, work := checking.work
    configured := fun other member => checking.configured other (List.mem_cons_of_mem _ member)
    unfailed := fun other command success exitCode reported => ?_, succeeds := .inl ?_ }
  · rcases List.mem_append.1 reported with old | new
    · exact checking.unfailed other command success exitCode old
    · cases List.mem_singleton.1 new
      rfl
  · exact ⟨check, checking.configured check List.mem_cons_self, command, exitCode,
      List.mem_append_right _ (List.mem_singleton.2 rfl)⟩

end

theorem settled (checking : harness.Checking point [] record) :
    harness.Settled { record with lastVerified := some true } := by
  refine { checking.toOrderly with passed := fun _ => ⟨point, ?_, ?_, fun injected => ?_, fun _ => .inr ?_⟩ }
  · refine ⟨checking.noted, checking.due, checking.attempts, checking.work ▸ List.prefix_rfl, ?_,
      checking.unfailed⟩
    rcases checking.succeeds with succeeded | ⟨check, none_left, _⟩
    · exact succeeded
    · exact nomatch none_left
  · rw [checking.work, List.drop_length]
    rfl
  · exact checking.work ▸ checking.critiqued injected
  · exact checking.work.symm

end Checking

/-- What holds after the checks of a done-point. -/
def AfterChecks (outcome : VerificationOutcome) (record : TurnRecord ω) : Prop :=
  match outcome with
  | .failed => harness.Sound record
  | .passed | .skipped => harness.Settled record

def WhenDiligent (holds : TurnRecord ω → Prop) (state : TurnState ω) : Prop :=
  harness.Diligent (donePoints state.record.notes) → holds state.record

variable {harness} in
theorem WhenDiligent.aside {holds : TurnRecord ω → Prop} {state reached : TurnState ω}
    (moved : Aside state reached) (held : harness.WhenDiligent holds state) : harness.WhenDiligent holds reached := by
  rw [WhenDiligent, moved.record]
  exact held

/-- Checks are run in their order up to the first one that fails. -/
theorem runChecks_settles (point : DonePoint ω) (left : List String) :
    Triple (harness.WhenDiligent (harness.Checking point left))
      (harness.runChecks turnId (point.verify.attempts + 1) left)
      (fun outcome => harness.WhenDiligent (harness.AfterChecks outcome)) (fun _ _ => True) := by
  induction left with
  | nil =>
    refine .change_bind (harness.WhenDiligent harness.Settled) (fun state checking diligent => ?_)
      (.pure _ fun _ settled => settled)
    exact (checking diligent).settled
  | cons check rest ih =>
    have executes : Triple (harness.WhenDiligent (harness.Checking point (check :: rest)))
        (harness.executeCheck check)
        (fun answer => harness.WhenDiligent fun record => harness.Checking point (check :: rest) record ∧
          ((∃ error, answer = .error error) → ¬harness.Runnable check)) (fun _ _ => True) := by
      refine .perform fun state checking diligent => ⟨checking diligent, ?_⟩
      rintro ⟨error, failed⟩ runs
      obtain ⟨result, answered⟩ := runs state.world
      exact nomatch failed.symm.trans answered
    refine .bind executes fun answer => ?_
    cases answer with
    | error error =>
      refine .bind (.of_returns (Aside.routine.recordEvent turnId rfl)
        fun _ _ moved held => held.aside moved) fun _ => ?_
      exact ih.starting fun state held diligent => (held diligent).1.skip ((held diligent).2 ⟨error, rfl⟩)
    | ok result =>
      -- The verdict on the check is reported whatever it is.
      refine .bind (harness.recordEvent_record turnId rfl (harness.WhenDiligent fun record => Orderly record ∧
        (((result.content.get "success").bind Json.asBool).getD false = true →
          harness.Checking point rest record)) fun state reached reports _ held => ?_) fun _ =>
        .ite (fun succeeded => ?_) fun _ => ?_
      · rw [WhenDiligent, reports]
        intro diligent
        have checking := (held diligent).1
        rw [← checking.attempts]
        refine ⟨checking.report _ _ _, fun succeeded => ?_⟩
        rw [succeeded]
        exact checking.pass _ _
      · exact ih.starting fun state held diligent => (held diligent).2 succeeded
      · refine .change_bind (harness.WhenDiligent harness.Sound) (fun state held diligent => ?_) ?_
        · exact { (held diligent).1 with passed := nofun }
        · exact .bind (.change fun state held => held.aside (.push _)) fun _ => .pure _ fun _ sound => sound

def DoneWith (verified : Option Bool) : TurnState ω → Prop :=
  harness.WhenDiligent fun record => Orderly record ∧ (verified = some true → harness.Warranted record)

theorem critiqueOrComplete_sound : Triple (harness.WhenDiligent harness.Settled) harness.critiqueOrComplete
      (AtPhase (harness.WhenDiligent harness.Sound) harness.DoneWith) (fun _ _ => True) := by
  refine .reads_bind fun due => .ite (fun prompted => ?_) fun _ => ?_
  · refine .bind (.change fun state ⟨held, read⟩ diligent => ?_) fun _ => .pure _ fun _ sound => sound
    have settled := held diligent
    have fresh : state.verify.critiqueInjected = false := by
      simp only [prompted, Bool.and_eq_true, Bool.not_eq_true'] at read
      exact read.1.2
    refine
      { bounded := settled.bounded, incomplete := settled.incomplete, critiqued := fun _ => Nat.le_refl _
        passed := fun passed => ?_ }
    obtain ⟨point, backs, -, -, asked⟩ := settled.passed passed
    refine ⟨point, ⟨backs.noted, backs.due, backs.attempts, backs.work, backs.succeeded, backs.unfailed⟩,
      fun _ => ?_, fun _ => rfl⟩
    -- There was no critique yet, so these checks were the last thing that happened.
    have wanted : harness.verify.selfCritique = true := by
      simp only [prompted, Bool.and_eq_true] at read
      exact read.1.1
    rcases asked wanted with injected | same
    · exact nomatch fresh.symm.trans injected
    · exact Nat.le_of_eq (congrArg List.length same.symm)
  · refine .reads_bind fun verified => .pure _ ?_
    rintro state ⟨⟨held, _⟩, read⟩ diligent
    have settled := held diligent
    refine ⟨settled.toOrderly, fun positive => ?_⟩
    obtain ⟨point, backs, unchanged, -⟩ := settled.passed (read.trans positive)
    exact ⟨point, backs, unchanged⟩

/-- What is sound stays so at a done-point, which is noted. -/
theorem sound_atDonePoint {state : TurnState ω} (held : harness.WhenDiligent harness.Sound state) :
    harness.WhenDiligent (fun record => harness.Sound record ∧
      ⟨state.verify, state.executed, state.world.host⟩ ∈ donePoints record.notes) state.atDonePoint := by
  have grows : donePoints state.atDonePoint.record.notes = donePoints state.record.notes ++
      [⟨state.verify, state.executed, state.world.host⟩] := by
    rw [TurnState.atDonePoint, state.record_note rfl]
    simp [donePoints, TurnNote.points]
  intro diligent
  have sound := held (grows ▸ diligent).of_append
  refine ⟨{ sound.toOrderly with passed := fun passed => ?_ }, grows ▸ List.mem_append_right _ List.mem_cons_self⟩
  obtain ⟨point, backs, critique⟩ := sound.passed passed
  exact ⟨point, { backs with noted := grows ▸ List.mem_append_left _ backs.noted }, critique⟩

theorem verifyBeforeDone_sound : Triple (harness.WhenDiligent harness.Sound) (harness.verifyBeforeDone turnId)
      (AtPhase (harness.WhenDiligent harness.Sound) harness.DoneWith) (fun _ _ => True) := by
  refine harness.verifyBeforeDone_rule turnId (fun state held undue diligent => ?_) (fun state held due => ?_)
    harness.critiqueOrComplete_sound
  · obtain ⟨sound, noted⟩ := harness.sound_atDonePoint held diligent
    exact sound.settled diligent noted ⟨rfl, rfl, rfl, rfl, rfl⟩ undue
  · -- The checks are due, so that one of them can be run.
    let point : DonePoint ω := { verify := state.verify, executed := state.executed, host := state.world.host }
    refine (harness.runChecks_settles turnId point (harness.dueChecks state.world.host)).weaken ?_
      (fun outcome _ holds => ?_) fun _ _ _ => trivial
    · rintro _ rfl diligent
      obtain ⟨sound, noted⟩ := harness.sound_atDonePoint held diligent
      refine
        { bounded := fun _ _ _ _ _ reported => Nat.le_succ_of_le (sound.bounded _ _ _ _ _ reported)
          incomplete := sound.incomplete, critiqued := sound.critiqued, noted := noted, due := due
          attempts := rfl, work := rfl, configured := fun check member => member
          unfailed := fun _ _ _ _ reported => ?_, succeeds := .inr ?_ }
      · -- No event has been reported for this attempt.
        exact absurd (sound.bounded _ _ _ _ _ reported) (Nat.not_succ_le_self _)
      · exact diligent.runnable point noted due
    · cases outcome <;> exact holds

theorem turnCourse_sound :
    TurnCourse harness turnId (harness.WhenDiligent harness.Sound) harness.DoneWith (fun _ _ => True) where
  opens state fresh _ := by
    rw [fresh]
    exact ⟨⟨fun _ _ _ _ _ wrong => (nomatch wrong), fun _ _ _ _ wrong => (nomatch wrong), nofun⟩,
      nofun⟩
  aside _ _ moved held := held.aside moved
  rests _ _ _ moved held := held.aside moved
  stops _ _ _ := trivial
  calls calls := by
    refine (Triple.of_moves (Worked.working.runToolCalls turnId calls)
      fun state reached worked held diligent => ?_).stopping fun _ _ _ => trivial
    exact worked.sound (held (worked.points ▸ diligent))
  donePoint := harness.verifyBeforeDone_sound turnId

end AgentHarness

def lintingHarness (lint : HostM Bool ToolResult) : AgentHarness Bool where
  codec := { parse _ := none, render _ := "" }
  tools := (ToolRegistry.withTool {}
    { name := "create_file", description := "", inputSchema := .null, execute := fun _ => return { content := .obj [] } }).withTool
    { name := "run_checks", description := "", inputSchema := .null, execute := fun _ => lint }
  permissionPolicy := allowAllPermissionPolicy
  infer _ asked :=
    (.ok { provider := "", model := "", assistantMessage := if asked then some "done" else none,
           toolCalls := if asked then [] else [{ id := "a", name := "create_file", input := .obj [] }] }, true)
  detectTest _ := some "cargo test"
  maxIterations := 2
  verify := { selfVerify := true, lintAndFix := true, verifyIterations := 1 }

/-- The turn of a model that creates a file. -/
def lintedTurn (lint : HostM Bool ToolResult) : Except TurnStop TurnOutcome × TurnState Bool :=
  (lintingHarness lint).runTurnWithState "turn" { sessionId := "session" } "go" false

def reportedVerdicts (turn : Except TurnStop TurnOutcome × TurnState Bool) : List EventKind :=
  (turn.2.events.map (·.kind)).filter (·.isVerdict)

/-- A linter that finds nothing. -/
def cleanLinter : HostM Bool ToolResult := return { content := .obj [("success", .bool true)] }

def missingLinter : HostM Bool ToolResult := throw (.toolFailed "run_checks" "no linter detected")

end Codel00p
