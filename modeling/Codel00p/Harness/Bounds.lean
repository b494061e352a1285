import Codel00p.Harness.Loop
import Codel00p.Harness.Protocol

/-! What one turn can use up: inferences, verification attempts, and self-critiques, and what it reports of them. -/

namespace Codel00p

open Program (exec Moves Triple Returns exec_change)

variable {ω : Type}

def EventKind.completedUsage : EventKind → Option (Option TokenUsage)
  | .turnCompleted _ usage _ _ => some usage
  | _ => none

def completions (events : List HarnessEvent) : List (Option TokenUsage) :=
  events.filterMap fun event => event.kind.completedUsage

def TurnNote.isAsked : TurnNote ω → Bool
  | .asked _ => true
  | _ => false

def TurnNote.reportedUsage : TurnNote ω → Option TokenUsage
  | .replied reply _ => reply.usage
  | _ => none

def AgentHarness.verifies (harness : AgentHarness ω) : TurnNote ω → Bool
  | .donePoint verify executed host => harness.verificationDue verify executed host
  | _ => false

def SessionMessage.isCritique (message : SessionMessage) : Bool :=
  message.role = .user && message.content = selfCritiquePrompt

/-- The number of reflection prompts in a session. -/
def critiques (messages : List SessionMessage) : Nat := messages.countP SessionMessage.isCritique

def cappedSum (counter : TokenUsage → Nat) (usages : List TokenUsage) : Nat := min (usages.map counter).sum maxU64

def TokenUsage.total (usages : List TokenUsage) : TokenUsage :=
  { inputTokens := cappedSum (·.inputTokens) usages
    outputTokens := cappedSum (·.outputTokens) usages
    cacheReadTokens := cappedSum (·.cacheReadTokens) usages
    cacheWriteTokens := cappedSum (·.cacheWriteTokens) usages
    reasoningTokens := cappedSum (·.reasoningTokens) usages }

/-- The usage of a turn: nothing as long as no inference has reported any. -/
def turnUsage (usages : List TokenUsage) : Option TokenUsage :=
  if usages.isEmpty then none else some (.total usages)

theorem saturatingAdd_cappedSum (counter : TokenUsage → Nat) (usages : List TokenUsage) (usage : TokenUsage) :
    saturatingAdd (cappedSum counter usages) (counter usage) = cappedSum counter (usages ++ [usage]) := by
  simp only [saturatingAdd, cappedSum, List.map_append, List.sum_append, List.map_cons, List.map_nil,
    List.sum_cons, List.sum_nil]
  omega

theorem turnUsage_snoc (usages : List TokenUsage) (usage : TokenUsage) :
    some (((turnUsage usages).getD {}).add usage) = turnUsage (usages ++ [usage]) := by
  have total : (TokenUsage.total usages).add usage = .total (usages ++ [usage]) := by
    simp [TokenUsage.add, TokenUsage.total, saturatingAdd_cappedSum]
  cases usages with
  | nil =>
    -- Nothing was accumulated so far, which is the total of nothing.
    have start : (TokenUsage.total [] : TokenUsage) = {} := by decide
    rw [show turnUsage [] = none from rfl, Option.getD_none, ← start, total]
    rfl
  | cons first rest =>
    rw [turnUsage, if_neg (by simp), Option.getD_some, total]
    rfl

theorem critiques_append (messages added : List SessionMessage) :
    critiques (messages ++ added) = critiques messages + critiques added :=
  List.countP_append

/-- A state with the same accounts, in which messages but no reflection prompt have been added. -/
structure Calm (harness : AgentHarness ω) (state reached : TurnState ω) : Prop where
  asked : reached.log.countP TurnNote.isAsked = state.log.countP TurnNote.isAsked
  reported : reached.log.filterMap TurnNote.reportedUsage = state.log.filterMap TurnNote.reportedUsage
  verified : reached.log.countP harness.verifies = state.log.countP harness.verifies
  completed : completions reached.events = completions state.events
  uncritical : ∃ added, reached.session.messages = state.session.messages ++ added ∧ critiques added = 0
  usage : reached.usage = state.usage
  attempts : reached.verify.attempts = state.verify.attempts
  injected : reached.verify.critiqueInjected = state.verify.critiqueInjected

theorem unsaid (messages : List SessionMessage) : ∃ added, messages = messages ++ added ∧ critiques added = 0 :=
  ⟨[], (List.append_nil _).symm, rfl⟩

instance (harness : AgentHarness ω) : Std.Refl (Calm harness) where
  refl _ := ⟨rfl, rfl, rfl, rfl, unsaid _, rfl, rfl, rfl⟩

instance (harness : AgentHarness ω) : IsTrans (TurnState ω) (Calm harness) where
  trans _ _ _ first second :=
    { asked := second.asked.trans first.asked
      reported := second.reported.trans first.reported
      verified := second.verified.trans first.verified
      completed := second.completed.trans first.completed
      uncritical := by
        obtain ⟨said, same, plain⟩ := first.uncritical
        obtain ⟨later, goesOn, plainly⟩ := second.uncritical
        exact ⟨said ++ later, by rw [goesOn, same, List.append_assoc],
          by rw [critiques_append, plain, plainly]⟩
      usage := second.usage.trans first.usage
      attempts := second.attempts.trans first.attempts
      injected := second.injected.trans first.injected }

namespace Calm

variable {harness : AgentHarness ω} {base state : TurnState ω}

theorem push {message : SessionMessage} (plain : message.isCritique = false) :
    Calm harness state (state.push message) where
  asked := rfl
  reported := rfl
  verified := rfl
  completed := rfl
  uncritical := ⟨[message], rfl, by simp [critiques, plain]⟩
  usage := rfl
  attempts := rfl
  injected := rfl

theorem note {observed : TurnNote ω} (unasked : observed.isAsked = false)
    (unreported : observed.reportedUsage = none) (unverified : harness.verifies observed = false) :
    Calm harness state (state.note observed) where
  asked := by simp [TurnState.note, List.countP_append, unasked]
  reported := by simp [TurnState.note, unreported]
  verified := by simp [TurnState.note, List.countP_append, unverified]
  completed := rfl
  uncritical := unsaid _
  usage := rfl
  attempts := rfl
  injected := rfl

theorem event {host : ω} {event : HarnessEvent} (incomplete : event.kind.completedUsage = none) :
    Calm harness state { state with world.host := host, events := state.events ++ [event] } :=
  ⟨rfl, rfl, rfl, by simp [completions, incomplete], unsaid _, rfl, rfl, rfl⟩

end Calm

theorem head?_selfCritiquePrompt : selfCritiquePrompt.toList.head? = some 'B' := by
  iterate 3 refine head?_toList_append ?_ _
  exact head?_toList_of_eq rfl

theorem isCritique_user {text : String} {first : Char} (begins : text.toList.head? = some first)
    (other : first ≠ 'B') : (SessionMessage.user text).isCritique = false := by
  have differ : text ≠ selfCritiquePrompt := by
    rintro rfl
    exact other (Option.some.inj (begins.symm.trans head?_selfCritiquePrompt))
  simp [SessionMessage.isCritique, SessionMessage.user, differ]

theorem isCritique_nudge {operation lastError nudge : String} {attempts : Nat} {replan : Bool}
    (earned : replanNudge operation attempts lastError replan = some nudge) :
    (SessionMessage.user nudge).isCritique = false := by
  have begins : nudge.toList.head? = some 'Y' := by
    simp only [replanNudge] at earned
    -- Whether or not the error is cut, the nudge begins with its own words.
    split at earned
    all_goals
      obtain ⟨excerpt, -, said⟩ := Option.bind_eq_some_iff.1 earned
      rw [← Option.some.inj said]
      iterate 9 refine head?_toList_append ?_ _
      exact head?_toList_of_eq rfl
  exact isCritique_user begins (by decide)

theorem AgentHarness.isCritique_feedback (harness : AgentHarness ω) (attempt : Nat) (command : String)
    (exitCode : Option Int) (content : Json) :
    (SessionMessage.user (harness.verificationFeedback attempt command exitCode content)).isCritique = false := by
  have begins : (harness.verificationFeedback attempt command exitCode content).toList.head? =
      some 'A' := by
    unfold verificationFeedback
    iterate 7 refine head?_toList_append ?_ _
    exact head?_toList_of_eq rfl
  exact isCritique_user begins (by decide)

namespace AgentHarness

variable (harness : AgentHarness ω) (turnId : String)

theorem recordEvent_calm {kind : EventKind} (incomplete : kind.completedUsage = none) :
    Returns (Calm harness) (harness.recordEvent turnId kind) :=
  .change fun _ => .event incomplete

theorem calm_working : Working harness (Calm harness) where
  host _ _ := ⟨rfl, rfl, rfl, rfl, unsaid _, rfl, rfl, rfl⟩
  event state event plain := by
    -- A routine event does not complete the turn.
    refine .event ?_
    cases same : event.kind <;> rw [same] at plain <;> first | rfl | exact nomatch plain
  asked _ _ _ := ⟨rfl, rfl, rfl, rfl, unsaid _, rfl, rfl, rfl⟩
  ran _ _ _ _ := ⟨rfl, rfl, rfl, rfl, unsaid _, rfl, rfl, rfl⟩
  returned _ _ _ := .note rfl rfl rfl
  batch _ _ := .note rfl rfl rfl
  failures _ _ := ⟨rfl, rfl, rfl, rfl, unsaid _, rfl, rfl, rfl⟩
  exceeded _ _ _ _ _ same := .event (by rw [same]; rfl)
  recorded _ _ _ _ := IsTrans.trans _ _ _ (.push rfl) (.note rfl rfl rfl)
  executed _ _ := ⟨rfl, rfl, rfl, rfl, unsaid _, rfl, rfl, rfl⟩
  nudge _ _ _ _ _ _ said := .push (isCritique_nudge said)

theorem runChecks_calm (attempt : Nat) (checks : List String) :
    Moves (Calm harness) (harness.runChecks turnId attempt checks) := by
  refine harness.calm_working.runChecks turnId harness.calm_working.toActing ?_ ?_ ?_ attempt checks
  · exact fun _ _ _ _ _ _ _ same => .event (by rw [same]; rfl)
  · exact fun _ _ => ⟨rfl, rfl, rfl, rfl, unsaid _, rfl, rfl, rfl⟩
  · exact fun _ _ _ _ _ => .push (harness.isCritique_feedback _ _ _ _)

end AgentHarness

def OpenedWith (session : SessionState) (userMessage : String) (opened : SessionState) : Prop :=
  opened = session.pushMessage (.user userMessage) ∨
    ∃ summary, opened = (session.pushMessage (.user userMessage)).compactWithSummary summary
      defaultCompactionRecentMessages

/--
The accounts of a turn that started from a session, has made at most so many inferences,
and has reported these completions.
-/
structure Accounts (harness : AgentHarness ω) (opened : SessionState) (asked : Nat)
    (closed : List (Option TokenUsage)) (state : TurnState ω) : Prop where
  asked : state.log.countP TurnNote.isAsked ≤ asked
  usage : state.usage = turnUsage (state.log.filterMap TurnNote.reportedUsage)
  verified : state.log.countP harness.verifies = state.verify.attempts
  attempts : state.verify.attempts ≤ harness.verify.verifyIterations
  critiqued : ∃ added, state.session.messages = opened.messages ++ added ∧
    critiques added ≤ state.verify.critiqueInjected.toNat
  completed : completions state.events = closed

namespace Accounts

variable {harness : AgentHarness ω} {opened : SessionState} {asked more : Nat} {closed : List (Option TokenUsage)}
  {state reached : TurnState ω}

section

variable (accounts : Accounts harness opened asked closed state)

include accounts

theorem calm (calm : Calm harness state reached) : Accounts harness opened asked closed reached where
  asked := calm.asked ▸ accounts.asked
  usage := by rw [calm.usage, calm.reported, accounts.usage]
  verified := by rw [calm.verified, calm.attempts, accounts.verified]
  attempts := calm.attempts ▸ accounts.attempts
  critiqued := by
    obtain ⟨said, same, once⟩ := accounts.critiqued
    obtain ⟨later, goesOn, plainly⟩ := calm.uncritical
    exact ⟨said ++ later, by rw [goesOn, same, List.append_assoc],
      by rw [critiques_append, plainly, calm.injected]; exact once⟩
  completed := calm.completed.trans accounts.completed

theorem mono (within : asked ≤ more) : Accounts harness opened more closed state :=
  { accounts with asked := Nat.le_trans accounts.asked within }

theorem reopen (session : SessionState) : Accounts harness session asked closed { state with session } :=
  { accounts with critiqued := ⟨[], (List.append_nil _).symm, Nat.zero_le _⟩ }

theorem ask (request : HarnessInferenceRequest) :
    Accounts harness opened (asked + 1) closed (state.note (.asked request)) := by
  have asks := accounts.asked
  refine { accounts with asked := ?_, usage := ?_, verified := ?_ }
  · simp only [TurnState.note, List.countP_append, List.countP_singleton, TurnNote.isAsked, if_true]
    omega
  · simpa [TurnState.note, List.filterMap_cons, TurnNote.reportedUsage] using accounts.usage
  · simpa [TurnState.note, AgentHarness.verifies] using accounts.verified

theorem replied {reply : HarnessInferenceResponse} {salvaged : Option ModelToolCall}
    (calm : Calm harness (state.note (.replied reply salvaged)) reached) : Accounts harness opened asked closed
      (exec (AgentHarness.accountUsage reply : TurnM ω Unit) reached).2 := by
  have asks : reached.log.countP TurnNote.isAsked = state.log.countP TurnNote.isAsked := by
    simpa [TurnState.note, TurnNote.isAsked] using calm.asked
  have checks : reached.log.countP harness.verifies = state.log.countP harness.verifies := by
    simpa [TurnState.note, AgentHarness.verifies] using calm.verified
  have same : reached.usage = turnUsage (state.log.filterMap TurnNote.reportedUsage) :=
    calm.usage.trans accounts.usage
  have reports := calm.reported
  obtain ⟨said, goes, once⟩ := accounts.critiqued
  obtain ⟨later, goesOn, plainly⟩ := calm.uncritical
  refine ⟨asks ▸ accounts.asked, ?_, ?_, ?_, ⟨said ++ later, ?_, ?_⟩, calm.completed.trans accounts.completed⟩
  · simp only [AgentHarness.accountUsage, exec_change, reports, TurnState.note,
      List.filterMap_append, List.filterMap_cons, List.filterMap_nil, TurnNote.reportedUsage]
    cases reply.usage with
    | none => simpa using same
    | some usage => simpa [same] using turnUsage_snoc _ usage
  · exact checks.trans (accounts.verified.trans calm.attempts.symm)
  · exact calm.attempts.symm ▸ accounts.attempts
  · exact goesOn.trans (by rw [← List.append_assoc, ← goes]; rfl)
  · rw [critiques_append, plainly]
    exact calm.injected.symm ▸ once

theorem rest (undue : harness.verificationDue state.verify state.executed state.world.host = false) :
    Accounts harness opened asked closed (state.note (.donePoint state.verify state.executed state.world.host)) :=
  accounts.calm (.note rfl rfl undue)

theorem verify (due : harness.verificationDue state.verify state.executed state.world.host = true) :
    Accounts harness opened asked closed { state.note (.donePoint state.verify state.executed state.world.host) with
        verify := { state.verify with attempts := state.verify.attempts + 1 } } := by
  have budget : state.verify.attempts < harness.verify.verifyIterations := by
    simp only [AgentHarness.verificationDue, AgentHarness.entersVerification, Bool.and_eq_true,
      decide_eq_true_eq] at due
    exact due.1.2
  have count := accounts.verified
  refine { accounts with asked := ?_, usage := ?_, verified := ?_, attempts := budget }
  · simpa [TurnState.note, TurnNote.isAsked] using accounts.asked
  · simpa [TurnState.note, List.filterMap_cons, TurnNote.reportedUsage] using accounts.usage
  · simp [TurnState.note, List.countP_append, AgentHarness.verifies, due, count]

end

end Accounts

namespace AgentHarness

section

variable {harness : AgentHarness ω} {opened : SessionState} {asked : Nat} {closed : List (Option TokenUsage)}

theorem accounted {α : Type} {program : TurnM ω α} (calm : Moves (Calm harness) program)
    (within : asked ≤ harness.maxIterations) : Triple (Accounts harness opened asked closed) program
      (fun _ => Accounts harness opened asked closed)
      (fun _ => Accounts harness opened harness.maxIterations closed) :=
  (Triple.of_moves calm fun _ _ moved accounts => accounts.calm moved).stopping fun _ _ accounts => accounts.mono within

theorem balanced {α : Type} {program : TurnM ω α} {stopped : TurnStop → TurnState ω → Prop}
    (calm : Returns (Calm harness) program) : Triple (Accounts harness opened asked closed) program
      (fun _ => Accounts harness opened asked closed) stopped :=
  .of_returns calm fun _ _ moved accounts => accounts.calm moved

end

variable (harness : AgentHarness ω) (turnId : String) (opened : SessionState)

abbrev StoppedWith (_ : TurnStop) (state : TurnState ω) : Prop :=
  Accounts harness opened harness.maxIterations [] state

def ClosedWith (outcome : TurnOutcome) (state : TurnState ω) : Prop :=
  Accounts harness opened harness.maxIterations [state.usage] state ∧ outcome.events = state.events

variable {asked : Nat}

theorem askModel_accounts (request : HarnessInferenceRequest) (within : asked < harness.maxIterations) :
    Triple (Accounts harness opened asked []) (harness.askModel turnId request)
      (fun _ => Accounts harness opened (asked + 1) []) (harness.StoppedWith opened) := by
  refine .bind (balanced (harness.recordEvent_calm turnId rfl)) fun _ => ?_
  refine .change_bind (Accounts harness opened (asked + 1) []) (fun _ accounts => accounts.ask request) ?_
  refine .bind (balanced (harness.calm_working.withHost (.infer request))) fun outcome => ?_
  refine .bind (accounted (Routine.orFail outcome) within) fun reply => ?_
  -- From here until the usage is added, the total is short of the usage of this reply.
  refine .change_bind (fun state => ∃ before, Accounts harness opened (asked + 1) [] before ∧
    Calm harness (before.note (.replied reply (harness.salvage reply))) state)
    (fun state accounts => ⟨state, accounts, Std.Refl.refl _⟩) ?_
  refine .bind (.of_returns (harness.recordEvent_calm turnId rfl)
    fun _ _ moved ⟨before, accounts, calm⟩ => ⟨before, accounts, IsTrans.trans _ _ _ calm moved⟩) fun _ => ?_
  refine .bind (.change fun state ⟨before, accounts, calm⟩ => accounts.replied calm) fun _ => ?_
  exact .bind (balanced (harness.recordEvent_calm turnId rfl)) fun _ => .pure _ fun _ accounts => accounts

theorem critiqueOrComplete_accounts : Triple (Accounts harness opened asked []) harness.critiqueOrComplete
      (fun _ => Accounts harness opened asked []) (harness.StoppedWith opened) := by
  refine .reads_bind fun due => .ite (fun prompted => ?_) fun _ => ?_
  · refine .bind (.change fun state ⟨accounts, read⟩ => ?_) fun _ => .pure _ fun _ accounts => accounts
    have fresh : state.verify.critiqueInjected = false := by
      simp only [prompted, Bool.and_eq_true, Bool.not_eq_true'] at read
      exact read.1.2
    obtain ⟨said, same, once⟩ := accounts.critiqued
    have none_said : critiques said = 0 := by rw [fresh] at once; exact Nat.le_zero.1 once
    refine { accounts with critiqued := ⟨said ++ [.user selfCritiquePrompt], ?_, ?_⟩ }
    · exact (congrArg (· ++ _) same).trans (List.append_assoc _ _ _)
    · rw [critiques_append, none_said, Nat.zero_add]
      exact List.countP_le_length
  · exact .reads_bind fun verified => .pure _ fun _ holds => holds.1.1

theorem verifyBeforeDone_accounts (within : asked ≤ harness.maxIterations) :
    Triple (Accounts harness opened asked []) (harness.verifyBeforeDone turnId)
      (fun _ => Accounts harness opened asked []) (harness.StoppedWith opened) := by
  refine harness.verifyBeforeDone_rule turnId (fun state accounts undue => accounts.rest undue)
    (fun state accounts due => ?_) (harness.critiqueOrComplete_accounts opened)
  refine (accounted (harness.runChecks_calm turnId _ _) within).weaken ?_ (fun outcome _ holds => ?_) fun _ _ holds => holds
  · rintro _ rfl
    exact accounts.verify due
  · cases outcome <;> exact holds

theorem closeTurn_accounts (iterations : Nat) (assistantMessage : Option String) (verified : Option Bool)
    (cancelled : Bool) : Triple (Accounts harness opened harness.maxIterations [])
      (harness.closeTurn turnId iterations assistantMessage verified cancelled)
      (harness.ClosedWith opened) (harness.StoppedWith opened) := by
  refine .bind (balanced (harness.calm_working.runLifecycleHook turnId _)) fun _ => ?_
  refine .reads_bind fun (usage, cost) => ?_
  refine .change_bind (fun state => Accounts harness opened harness.maxIterations [state.usage] state)
    (fun state ⟨accounts, read⟩ => ?_) (.reads fun state accounts => ⟨accounts, rfl⟩)
  have same : state.usage = usage := congrArg Prod.fst read
  have unreported : state.events.filterMap (fun event => event.kind.completedUsage) = [] := accounts.completed
  refine { accounts with completed := ?_ }
  rw [completions, List.filterMap_append, unreported, List.nil_append, ← same]
  rfl

/-- What was asked for grows by one while one iteration less is left. -/
theorem accounts_rule : TurnRule harness turnId (Calm harness)
    { kept := fun left state => left ≤ harness.maxIterations ∧
        Accounts harness opened (harness.maxIterations - left) [] state
      done := fun _ => Accounts harness opened harness.maxIterations []
      closed := harness.ClosedWith opened
      stopped := harness.StoppedWith opened } :=
  { harness.calm_working.toRoutine with
    heeded := fun _ => ⟨rfl, rfl, rfl, rfl, unsaid _, rfl, rfl, rfl⟩
    keeps := fun _ _ _ moved holds => ⟨holds.1, holds.2.calm moved⟩
    hears := fun _ _ _ _ moved holds => ⟨holds.1, holds.2.calm moved⟩
    closes := fun _ _ _ moved holds => ⟨holds.1, holds.2.calm moved⟩
    rests := fun _ _ _ moved accounts => accounts.calm moved
    stops := fun _ _ _ holds => holds.2.mono (Nat.sub_le _ _)
    asks := fun left request => .knowing (fun _ holds => holds.1.1) fun within => by
      have spent : harness.maxIterations - (left + 1) + 1 = harness.maxIterations - left := by omega
      refine (harness.askModel_accounts turnId opened request (by omega)).weaken (fun _ holds => holds.1.2)
        (fun _ _ accounts => ⟨by omega, spent ▸ accounts⟩) fun _ _ holds => holds
    utters := fun _ reply _ => .knowing (fun _ holds => holds.1) fun within =>
      (accounted (Routine.sayReply (fun _ _ => .push rfl) reply) (Nat.sub_le _ _)).weaken (fun _ holds => holds.2)
        (fun _ _ accounts => ⟨within, accounts⟩) fun _ _ holds => holds
    acts := fun _ _ _ _ _ _ holds => ⟨holds.1, holds.2.calm (.push rfl)⟩
    calls := fun _ calls => .knowing (fun _ holds => holds.1) fun within =>
      (accounted (harness.calm_working.runToolCalls turnId calls) (Nat.sub_le _ _)).weaken (fun _ holds => holds.2)
        (fun _ _ accounts => ⟨within, accounts⟩) fun _ _ holds => holds
    donePoint := fun _ => .knowing (fun _ holds => holds.1) fun within => by
      refine (harness.verifyBeforeDone_accounts turnId opened (Nat.sub_le _ _)).weaken (fun _ holds => holds.2)
        (fun phase _ accounts => ?_) fun _ _ holds => holds
      cases phase with
      | «continue» => exact ⟨within, accounts⟩
      | complete verified => exact accounts.mono (Nat.sub_le _ _)
    completes := fun _ _ _ => harness.closeTurn_accounts turnId opened _ _ _ _
    cancels := by
      rintro _ ⟨_, rfl | ⟨_, rfl⟩⟩ iterations <;>
        exact (harness.closeTurn_accounts turnId opened _ _ _ _).starting fun _ holds => holds.2.mono (Nat.sub_le _ _) }

/-- A calm state with the same session. -/
def Idle (state reached : TurnState ω) : Prop := Calm harness state reached ∧ reached.session = state.session

instance : Std.Refl (Idle harness) where
  refl _ := ⟨Std.Refl.refl _, rfl⟩

instance : IsTrans (TurnState ω) (Idle harness) where
  trans _ _ _ first second := ⟨IsTrans.trans _ _ _ first.1 second.1, second.2.trans first.2⟩

def Untouched (state : TurnState ω) : Prop := Accounts harness opened 0 [] state ∧ state.session = opened

/-- A turn keeps its accounts from the session it opened, however it ends. -/
theorem runTurn_accounts (session : SessionState) (userMessage : String) (host : ω) :
    Triple (· = { world := { host }, session }) (harness.runTurn turnId userMessage)
      (fun outcome state => ∃ opened, OpenedWith session userMessage opened ∧ harness.ClosedWith opened outcome state)
      (fun stop state => ∃ opened, OpenedWith session userMessage opened ∧
        harness.StoppedWith opened stop state) := by
  have idle : Routine harness (Idle harness) :=
    ⟨fun consults state => ⟨harness.calm_working.host consults state, rfl⟩,
      fun state event plain => ⟨harness.calm_working.event state event plain, rfl⟩⟩
  have rests : ∀ opened state reached, Idle harness state reached → harness.Untouched opened state →
      harness.Untouched opened reached :=
    fun _ _ _ moved holds => ⟨holds.1.calm moved.1, moved.2.trans holds.2⟩
  have fresh : harness.Untouched session { world := { host }, session } :=
    ⟨⟨Nat.zero_le _, rfl, rfl, Nat.zero_le _, ⟨[], (List.append_nil _).symm, Nat.le_refl _⟩, rfl⟩, rfl⟩
  refine (idle.runTurn turnId userMessage
    (fun state => ∃ opened, OpenedWith session userMessage opened ∧ harness.Untouched opened state)
    (rests session) (fun state holds => ?_) (rests _) (fun state holds => ⟨_, .inl rfl, holds.1.mono (Nat.zero_le _)⟩)
    (fun state holds => ⟨_, .inl rfl, holds⟩) (fun state reached summary moved holds _ => ?_)
    (fun state reached moved ⟨opened, how, holds⟩ => ⟨opened, how, rests _ _ _ moved holds⟩) ?_).starting
    (fun _ here => here ▸ fresh)
  · exact holds.2 ▸ ⟨holds.1.reopen _, rfl⟩
  · have noted : Accounts harness _ 0 [] (reached.note .compacted) := (holds.1.calm moved.1).calm (.note rfl rfl rfl)
    refine ⟨_, .inr ⟨summary, rfl⟩, ?_⟩
    rw [← holds.2, ← moved.2]
    exact ⟨noted.reopen _, rfl⟩
  · -- From here on the session is only added to.
    refine .each fun state ⟨opened, how, accounts, _⟩ => ?_
    refine ((harness.accounts_rule turnId opened).runIterations _).weaken (fun _ here => ⟨Nat.le_refl _, ?_⟩)
      (fun _ _ holds => ⟨opened, how, holds⟩) fun _ _ holds => ⟨opened, how, holds⟩
    rw [Nat.sub_self, here]
    exact accounts

end AgentHarness

/--
A turn makes at most `maxIterations` inferences and `verifyIterations` verification attempts and asks for
at most one self-critique, however it ends. When it returns it has reported one completion, with the usages
of all its inferences added up counter by counter, each sum capped at the largest 64-bit value.
-/
theorem turn_bounded (harness : AgentHarness ω) (turnId : String) (session : SessionState)
    (userMessage : String) (host : ω) (outcome : Except TurnStop TurnOutcome) (reached : TurnState ω)
    (ran : harness.runTurnWithState turnId session userMessage host = (outcome, reached)) :
    reached.log.countP TurnNote.isAsked ≤ harness.maxIterations ∧
      reached.log.countP harness.verifies ≤ harness.verify.verifyIterations ∧
      (∃ opened added, OpenedWith session userMessage opened ∧
        reached.session.messages = opened.messages ++ added ∧ critiques added ≤ 1) ∧ ∀ done, outcome = .ok done →
        completions done.events = [turnUsage (reached.log.filterMap TurnNote.reportedUsage)] := by
  have kept := (harness.runTurn_accounts turnId session userMessage host).run _ rfl
  rw [show exec (harness.runTurn turnId userMessage) _ = (outcome, reached) from ran] at kept
  have bounds : ∀ {opened closed}, OpenedWith session userMessage opened →
      Accounts harness opened harness.maxIterations closed reached →
      reached.log.countP harness.verifies ≤ harness.verify.verifyIterations ∧
      ∃ opened added, OpenedWith session userMessage opened ∧
        reached.session.messages = opened.messages ++ added ∧ critiques added ≤ 1 := by
    intro opened closed how accounts
    obtain ⟨added, same, once⟩ := accounts.critiqued
    exact ⟨accounts.verified ▸ accounts.attempts, opened, added, how, same, Nat.le_trans once (Bool.toNat_le _)⟩
  cases outcome with
  | error stop =>
    obtain ⟨opened, how, accounts⟩ := kept
    obtain ⟨attempts, critiqued⟩ := bounds how accounts
    exact ⟨accounts.asked, attempts, critiqued, nofun⟩
  | ok done =>
    obtain ⟨opened, how, accounts, own⟩ := kept
    obtain ⟨attempts, critiqued⟩ := bounds how accounts
    refine ⟨accounts.asked, attempts, critiqued, fun _ same => ?_⟩
    cases same
    rw [own, accounts.completed, accounts.usage]

def countingHarness (first second : Nat) : AgentHarness Bool where
  codec := { parse _ := none, render _ := "" }
  tools := {}
  permissionPolicy := allowAllPermissionPolicy
  infer _ asked :=
    (.ok { provider := "", model := "", assistantMessage := if asked then some "done" else none,
           toolCalls := if asked then [] else [{ id := "a", name := "sudo", input := .obj [] }],
           usage := some { inputTokens := if asked then second else first } }, true)
  maxIterations := 2

def countingTurn (first second : Nat) : Except TurnStop TurnOutcome × TurnState Bool :=
  (countingHarness first second).runTurnWithState "turn" { sessionId := "session" } "go" false

/-- Two inferences that use more than a counter can hold are reported as what it can hold. -/
theorem usage_capped : (countingTurn maxU64 1).1.toOption.map (fun done => completions done.events) =
        some [some { inputTokens := maxU64 }] ∧
      (countingTurn maxU64 1).2.log.filterMap TurnNote.reportedUsage =
        [{ inputTokens := maxU64 }, { inputTokens := 1 }] := by
  decide +kernel

/-- A turn of two inferences that returns reports the sum of their usages. -/
theorem usage_summed : (countingTurn 20 22).1.toOption.isSome = true ∧
      (countingTurn 20 22).2.log.countP TurnNote.isAsked ≤ 2 ∧
      ∀ done, (countingTurn 20 22).1 = .ok done → completions done.events = [some { inputTokens := 42 }] := by
  have bounded := turn_bounded (countingHarness 20 22) "turn" { sessionId := "session" } "go" false
    (countingTurn 20 22).1 (countingTurn 20 22).2 Prod.mk.eta.symm
  have total : turnUsage ((countingTurn 20 22).2.log.filterMap TurnNote.reportedUsage) =
      some { inputTokens := 42 } := by
    decide +kernel
  refine ⟨by decide +kernel, bounded.1, fun done returned => ?_⟩
  rw [← total]
  exact bounded.2.2.2 done returned

end Codel00p
