import Mathlib.Data.List.TakeWhile
import Codel00p.Harness.Refinement

/-! In the transcript of a conversation every tool call is answered in its place. -/

namespace Codel00p

variable {ω : Type}

def resultIds (messages : List SessionMessage) : List (Option String) :=
  (messages.takeWhile fun message => message.role = .tool).map (·.toolCallId)

/--
Every message of the assistant is followed by exactly one result for each of its calls, in their order.

The results come before any other message, so what they answer is read off the front of the rest.
-/
def WellAnswered : List SessionMessage → Prop
  | [] => True
  | message :: rest =>
    (message.role = .assistant → resultIds rest = message.toolCalls.map fun call => some call.id) ∧ WellAnswered rest

instance WellAnswered.decide : (messages : List SessionMessage) → Decidable (WellAnswered messages)
  | [] => .isTrue trivial
  | message :: rest =>
    have := WellAnswered.decide rest
    inferInstanceAs (Decidable ((message.role = .assistant →
      resultIds rest = message.toolCalls.map fun call => some call.id) ∧ WellAnswered rest))

variable {messages : List SessionMessage} {session : SessionState} {harness : AgentHarness ω}

theorem resultIds_append {more : List SessionMessage}
    (opens : ∀ message, more.head? = some message → message.role ≠ .tool) :
    resultIds (messages ++ more) = resultIds messages := by
  induction messages with
  | nil =>
    cases more with
    | nil => rfl
    | cons message rest => simp [resultIds, opens message rfl]
  | cons message rest ih =>
    simp only [resultIds, List.cons_append, List.takeWhile_cons] at ih ⊢
    split
    · simpa using ih
    · rfl

theorem WellAnswered.append {more : List SessionMessage} (first : WellAnswered messages)
    (second : WellAnswered more) (opens : ∀ message, more.head? = some message → message.role ≠ .tool) :
    WellAnswered (messages ++ more) := by
  induction messages with
  | nil => exact second
  | cons message rest ih =>
    exact ⟨fun assistant => (resultIds_append opens).trans (first.1 assistant), ih first.2⟩

theorem WellAnswered.drop (whole : WellAnswered messages) (count : Nat) : WellAnswered (messages.drop count) := by
  induction count generalizing messages with
  | zero => exact whole
  | succ count ih =>
    cases messages with
    | nil => exact whole
    | cons message rest => exact ih whole.2

theorem WellAnswered.snoc (whole : WellAnswered messages)
    {message : SessionMessage} (unasked : message.role ≠ .tool) (callless : message.toolCalls = []) :
    WellAnswered (messages ++ [message]) := by
  refine whole.append ⟨fun _ => ?_, trivial⟩ ?_
  · rw [callless]
    rfl
  · rintro _ ⟨⟩
    exact unasked

theorem WellAnswered.compact (whole : WellAnswered session.messages)
    (summary : String) (keep : Nat) : WellAnswered (session.compactWithSummary summary keep).messages :=
  ⟨fun wrong => (nomatch wrong), whole.drop _⟩

theorem wellAnswered_of_results {results : List SessionMessage}
    (tools : ∀ message ∈ results, message.role = .tool) : WellAnswered results := by
  induction results with
  | nil => trivial
  | cons message rest ih =>
    refine ⟨fun assistant => ?_, ih fun other member => tools other (List.mem_cons_of_mem _ member)⟩
    rw [tools message List.mem_cons_self] at assistant
    exact nomatch assistant

def Owes (pending : List ModelToolCall) (messages : List SessionMessage) : Prop :=
  ∃ base done results, messages = base ++ .assistantToolCalls (done ++ pending) :: results ∧
    WellAnswered base ∧ (∀ message ∈ results, message.role = .tool) ∧
    results.map (·.toolCallId) = done.map fun call => some call.id

theorem Owes.call (whole : WellAnswered messages)
    (calls : List ModelToolCall) : Owes calls (messages ++ [.assistantToolCalls calls]) :=
  ⟨messages, [], [], rfl, whole, by simp, rfl⟩

theorem Owes.record {call : ModelToolCall} {pending : List ModelToolCall}
    (owes : Owes (call :: pending) messages) (content : String) :
    Owes pending (messages ++ [.toolResult call.id call.name content]) := by
  obtain ⟨base, done, results, rfl, whole, tools, ids⟩ := owes
  refine ⟨base, done ++ [call], results ++ [.toolResult call.id call.name content], by simp, whole, ?_, ?_⟩
  · intro message member
    rcases List.mem_append.1 member with old | new
    · exact tools message old
    · rw [List.mem_singleton.1 new]
      rfl
  · simp [ids, SessionMessage.toolResult]

theorem Owes.settle (owes : Owes [] messages) : WellAnswered messages := by
  obtain ⟨base, done, results, rfl, whole, tools, ids⟩ := owes
  refine whole.append ⟨fun _ => ?_, wellAnswered_of_results tools⟩ ?_
  · -- All that follows the calls are their results.
    have all : results.takeWhile (fun message => message.role = .tool) = results :=
      List.takeWhile_eq_self_iff.2 fun message member => by simpa using tools message member
    rw [resultIds, all, ids]
    simp [SessionMessage.assistantToolCalls]
  · rintro _ ⟨⟩
    exact fun wrong => nomatch wrong

namespace AgentHarness

variable (harness : AgentHarness ω)

/-- Every batch that used up the failure budget of an operation was the last one of its reply. -/
def NudgesLast (log : List (TurnNote ω)) : Prop :=
  ∀ note, .batch note ∈ log → harness.batchTrips note = true → note.last = true

def AskedWellAnswered (log : List (TurnNote ω)) : Prop :=
  ∀ request, .asked request ∈ log → WellAnswered request.session.messages

theorem AskedWellAnswered.append {log : List (TurnNote ω)} (asked : AskedWellAnswered log)
    {note : TurnNote ω} (other : ∀ request, note ≠ .asked request) : AskedWellAnswered (log ++ [note]) := by
  intro request member
  rcases List.mem_append.1 member with old | new
  · exact asked request old
  · exact absurd (List.mem_singleton.1 new).symm (other request)

/-- What a phase says about the transcript. -/
def InOrder (messages : List SessionMessage) : Phase → Prop
  | .idle => WellAnswered messages
  | .heard _ => WellAnswered messages
  | .closing => WellAnswered messages
  | .answering [] => WellAnswered messages
  | .answering (call :: pending) => Owes (call :: pending) messages

end AgentHarness

open AgentHarness

theorem inOrder_answering {pending : List ModelToolCall}
    (owes : Owes pending messages) : InOrder messages (.answering pending) := by
  cases pending with
  | nil => exact owes.settle
  | cons call pending => exact owes

/-- Every step keeps the transcript in order, as long as nudges come last. -/
theorem TurnStep.keeps_order {before after : Phase × TurnView ω} (steps : TurnStep harness before after)
    (holds : harness.NudgesLast before.2.log → AskedWellAnswered before.2.log ∧ InOrder before.2.messages before.1)
    (guarded : harness.NudgesLast after.2.log) :
    AskedWellAnswered after.2.log ∧ InOrder after.2.messages after.1 := by
  obtain ⟨asked, order⟩ := holds fun note noted => guarded note (steps.mem_log noted)
  cases steps with
  | user | say => exact ⟨asked, order.snoc (fun wrong => nomatch wrong) rfl⟩
  | compact view session summary due own =>
    refine ⟨asked.append (fun request wrong => nomatch wrong), ?_⟩
    rw [← own] at order
    exact order.compact summary _
  | ask view request own =>
    -- The session that is sent is the transcript itself.
    refine ⟨fun other member => ?_, order⟩
    rcases List.mem_append.1 member with old | new
    · exact asked other old
    · cases List.mem_singleton.1 new
      rw [own]
      exact order
  | hear | execute | batch | donePoint => exact ⟨asked.append (fun request wrong => nomatch wrong), order⟩
  | pass | decide | finish | check => exact ⟨asked, order⟩
  | call view reply calls => exact ⟨asked, inOrder_answering (.call order calls)⟩
  | record view call pending content =>
    exact ⟨asked.append (fun request wrong => nomatch wrong), inOrder_answering (order.record content)⟩
  | nudge view pending text note noted trips ends =>
    -- The batch was the last one, so nothing is owed any more.
    cases ends (guarded note noted trips)
    exact ⟨asked, order.snoc (fun wrong => nomatch wrong) rfl⟩

theorem turn_wellAnswered
    (assembled : harness.tools.All (Assembled harness.codec harness.permissionPolicy)) {turnId : String}
    {userMessage : String} {host : ω} {outcome : Except TurnStop TurnOutcome}
    {reached : TurnState ω} (whole : WellAnswered session.messages)
    (ran : harness.runTurnWithState turnId session userMessage host = (outcome, reached))
    (guarded : harness.NudgesLast reached.log) :
    AskedWellAnswered reached.log ∧ ∀ done, outcome = .ok done → WellAnswered done.session.messages := by
  obtain ⟨⟨phase, ended⟩, returned⟩ := harness.runTurnWithState_invariant turnId assembled ran
    (fun phase view => harness.NudgesLast view.log → AskedWellAnswered view.log ∧ InOrder view.messages phase)
    (fun _ => ⟨fun _ wrong => (nomatch wrong), whole⟩) fun _ _ steps holds => steps.keeps_order holds
  refine ⟨(ended guarded).1, fun done same => ?_⟩
  -- A turn that returns owes nothing, whether it is at rest or has just heard a reply.
  obtain ⟨own, rest | ⟨reply, heard⟩⟩ := returned done same
  · rw [own]
    exact (rest guarded).2
  · rw [own]
    exact (heard guarded).2

inductive Conversation : SessionState → Prop where
  | new (sessionId : String) : Conversation { sessionId }
  | turn {ω : Type} {session : SessionState} (earlier : Conversation session) (harness : AgentHarness ω)
      (assembled : harness.tools.All (Assembled harness.codec harness.permissionPolicy))
      (turnId userMessage : String) (host : ω) (outcome : TurnOutcome) (reached : TurnState ω)
      (ran : harness.runTurnWithState turnId session userMessage host = (.ok outcome, reached))
      (guarded : harness.NudgesLast reached.log) : Conversation outcome.session

theorem Conversation.wellAnswered (conversed : Conversation session) : WellAnswered session.messages := by
  induction conversed with
  | new sessionId => trivial
  | turn earlier harness assembled turnId userMessage host outcome reached ran guarded ih =>
    exact (turn_wellAnswered assembled ih ran guarded).2 outcome rfl

/--
In every conversation each assistant message is followed by one result for each of its calls,
in every session that is sent to the model or handed back, as long as no batch but the last one
of a reply uses up the failure budget of an operation.
-/
theorem conversation_answers_in_place {session : SessionState} (conversed : Conversation session)
    (harness : AgentHarness ω) (assembled : harness.tools.All (Assembled harness.codec harness.permissionPolicy))
    (turnId userMessage : String) (host : ω) (outcome : Except TurnStop TurnOutcome) (reached : TurnState ω)
    (ran : harness.runTurnWithState turnId session userMessage host = (outcome, reached))
    (guarded : harness.NudgesLast reached.log) :
    (∀ request, .asked request ∈ reached.log → WellAnswered request.session.messages) ∧
      ∀ done, outcome = .ok done → WellAnswered done.session.messages :=
  turn_wellAnswered assembled conversed.wellAnswered ran guarded

theorem AgentHarness.nudgesLast_of_no_replan
    (off : harness.selfCorrect.replanOnFailure = false) (log : List (TurnNote ω)) : harness.NudgesLast log := by
  have never : ∀ pairs tracker, harness.anyTrips tracker pairs = false := by
    intro pairs
    induction pairs with
    | nil => exact fun _ => rfl
    | cons first rest ih => exact fun tracker => by simp [anyTrips, trips, off, ih]
  intro note _ trips
  rw [batchTrips, never] at trips
  cases trips

def stumblingHarness (replanOnFailure : Bool) : AgentHarness Bool where
  codec := { parse _ := none, render _ := "" }
  tools := {}
  permissionPolicy := allowAllPermissionPolicy
  infer _ asked :=
    let call := fun id => { id, name := "sudo", input := .obj [] : ModelToolCall }
    (.ok { provider := "", model := "", assistantMessage := if asked then some "done" else none,
           toolCalls := if asked then [] else [call "a", call "b"] }, true)
  maxIterations := 2
  selfCorrect := { replanOnFailure, failureBudget := 1 }

def stumblingTurn (replanOnFailure : Bool) : Except TurnStop TurnOutcome × TurnState Bool :=
  (stumblingHarness replanOnFailure).runTurnWithState "turn" { sessionId := "session" } "go" false

/-- The nudge for the first of two failing calls separates their results. -/
theorem nudge_between_results :
    (stumblingTurn true).1.toOption.map (fun outcome => decide (WellAnswered outcome.session.messages)) =
      some false := by
  decide +kernel

/-- Without replanning the results of the same calls stay together. -/
theorem results_together : (stumblingTurn false).1.toOption.isSome = true ∧
      ∀ done, (stumblingTurn false).1 = .ok done → WellAnswered done.session.messages :=
  ⟨by decide +kernel, (conversation_answers_in_place (.new "session") (stumblingHarness false)
    (fun _ _ wrong => nomatch wrong) "turn" "go" false (stumblingTurn false).1
    (stumblingTurn false).2 Prod.mk.eta.symm (nudgesLast_of_no_replan rfl _)).2⟩

end Codel00p
