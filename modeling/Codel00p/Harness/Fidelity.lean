import Codel00p.Harness.ProviderAdapter
import Codel00p.Harness.Refinement

/-! What the model said and was answered so far is what the provider is sent next. -/

namespace Codel00p

open TurnView (push)

variable {ω : Type}

/-- Something the model said, or was answered. -/
inductive Item where
  | text (content : String)
  | call (id name : String) (arguments : Json)
  | result (callId content : String)

def ModelToolCall.item (call : ModelToolCall) : Item := .call call.id call.name call.input

/-- What a message to the provider says of the model's words and its results. -/
def ChatMessage.items (message : ChatMessage) : List Item :=
  match message.role with
  | .assistant => (message.content.map Item.text).toList ++
      message.toolCalls.map fun call => .call (call.id.getD "") call.name call.arguments
  | .tool => [.result (message.toolCallId.getD "") (message.content.getD "")]
  | .system | .developer | .user => []

/-- What a session says of them once it is translated. -/
def sessionItems (messages : List SessionMessage) : List Item :=
  messages.flatMap fun message => (mapSessionMessage message).items

inductive Heard where
  /-- A reply of the model, with the call that its text spells out, if it spells out one. -/
  | reply (reply : HarnessInferenceResponse) (salvaged : Option ModelToolCall)
  | result (callId content : String)

namespace Heard

def produced : Heard → List Item
  | .reply said _ => (said.assistantMessage.map Item.text).toList ++
      said.toolCalls.map ModelToolCall.item
  | .result callId content => [.result callId content]

def delivered : Heard → List Item
  | .reply _ (some call) => [call.item]
  | .reply said none =>
    if said.toolCalls.isEmpty then (said.assistantMessage.map Item.text).toList
    else said.toolCalls.map ModelToolCall.item
  | .result callId content => [.result callId content]

/-- Whether nothing gets lost: a reply has no text next to its calls, and spells out none. -/
def Plain : Heard → Prop
  | .reply said salvaged => salvaged = none ∧ (said.assistantMessage = none ∨ said.toolCalls = [])
  | .result _ _ => True

theorem Plain.delivered_eq {heard : Heard} (plain : heard.Plain) : heard.delivered = heard.produced := by
  cases heard with
  | result callId content => rfl
  | reply said salvaged =>
    obtain ⟨rfl, silent | callless⟩ := plain
    · cases calls : said.toolCalls <;> simp [delivered, produced, silent, calls]
    · simp [delivered, produced, callless]

end Heard

def TurnNote.heard : TurnNote ω → List Heard
  | .replied reply salvaged => [.reply reply salvaged]
  | .recorded callId content => [.result callId content]
  | .asked _ | .returned _ _ | .batch _ | .compacted | .donePoint _ _ _ => []

/-- What is passed on of the observations of a turn. -/
def deliveries (log : List (TurnNote ω)) : List Item := (log.flatMap TurnNote.heard).flatMap Heard.delivered

@[simp] theorem deliveries_append (log more : List (TurnNote ω)) :
    deliveries (log ++ more) = deliveries log ++ deliveries more := by
  simp [deliveries]

@[simp] theorem deliveries_nil : deliveries ([] : List (TurnNote ω)) = [] := rfl

def TurnNote.isReply : TurnNote ω → Bool
  | .replied _ _ => true
  | _ => false

/-- The observations of a turn without a last reply that nothing was made of. -/
def heeded (log : List (TurnNote ω)) : List (TurnNote ω) :=
  if log.getLast?.any TurnNote.isReply then log.dropLast else log

@[simp] theorem sessionItems_append (messages more : List SessionMessage) :
    sessionItems (messages ++ more) = sessionItems messages ++ sessionItems more :=
  List.flatMap_append

@[simp] theorem sessionItems_user (text : String) : sessionItems [.user text] = [] := rfl

@[simp] theorem sessionItems_assistant (text : String) : sessionItems [.assistant text] = [.text text] := rfl

@[simp] theorem sessionItems_toolResult (callId name content : String) :
    sessionItems [.toolResult callId name content] = [.result callId content] := rfl

theorem sessionItems_assistantToolCalls {calls : List ModelToolCall} (nonempty : calls ≠ []) :
    sessionItems [.assistantToolCalls calls] = calls.map ModelToolCall.item := by
  simp [sessionItems, mapSessionMessage, SessionMessage.assistantToolCalls, nonempty,
    ChatMessage.assistantToolCalls, ChatMessage.items, Function.comp_def, mapToolCall,
    ModelToolCall.item]

theorem items_buildProviderRequest (provider model : String) (request : HarnessInferenceRequest) :
    (buildProviderRequest provider model request).messages.flatMap ChatMessage.items =
      sessionItems request.session.messages := by
  have blocks : ∀ texts : List String, (texts.map ChatMessage.system).flatMap ChatMessage.items = [] := by
    intro texts
    simp [ChatMessage.system, ChatMessage.items]
  rw [buildProviderRequest, List.flatMap_append, blocks, List.nil_append, List.flatMap_map]
  rfl

/-- Every request so far was told what had been delivered by then, unless there was a compaction. -/
def AskedFaithfully (start : List Item) (log : List (TurnNote ω)) : Prop :=
  ∀ before request after, log = before ++ .asked request :: after → .compacted ∉ before →
    sessionItems request.session.messages = start ++ deliveries before

variable {start : List Item} {harness : AgentHarness ω} {before after : Phase × TurnView ω}

theorem AskedFaithfully.snoc {log : List (TurnNote ω)} (asked : AskedFaithfully start log) {note : TurnNote ω}
    (fine : ∀ request, note = .asked request → .compacted ∉ log →
      sessionItems request.session.messages = start ++ deliveries log) : AskedFaithfully start (log ++ [note]) := by
  intro before request after split uncompacted
  rcases split_snoc split with ⟨rfl, own⟩ | ⟨earlier, old⟩
  · exact fine request own.symm uncompacted
  · exact asked before request earlier old uncompacted

namespace AgentHarness

variable (harness : AgentHarness ω)

def owed : Phase → List Item
  | .heard reply => (Heard.reply reply (harness.salvage reply)).delivered
  | .idle | .closing | .answering _ => []

/-- The transcript says what was delivered so far, but for what is owed, unless there was a compaction. -/
def Told (start : List Item) (phase : Phase) (view : TurnView ω) : Prop :=
  .compacted ∉ view.log → sessionItems view.messages ++ harness.owed phase = start ++ deliveries view.log

def Attentive (log : List (TurnNote ω)) : Phase → Prop
  | .heard reply => ∃ earlier, log = earlier ++ [.replied reply (harness.salvage reply)]
  | .idle | .answering [] => log.getLast?.any TurnNote.isReply = false
  | .closing | .answering (_ :: _) => True

variable {harness}

theorem Told.move {start : List Item} {phase next : Phase} {view reached : TurnView ω}
    (told : harness.Told start phase view) (notes : List (TurnNote ω)) (noted : reached.log = view.log ++ notes)
    (said : sessionItems reached.messages ++ harness.owed next =
      sessionItems view.messages ++ harness.owed phase ++ deliveries notes) : harness.Told start next reached := by
  intro uncompacted
  have earlier : .compacted ∉ view.log := by
    intro wrong
    rw [noted] at uncompacted
    exact uncompacted (List.mem_append_left _ wrong)
  rw [said, noted, deliveries_append, told earlier, List.append_assoc]

theorem delivered_of_callless {reply : HarnessInferenceResponse} (callless : harness.effectiveCalls reply = []) :
    (Heard.reply reply (harness.salvage reply)).delivered = (reply.assistantMessage.map Item.text).toList := by
  unfold effectiveCalls at callless
  cases salvaged : harness.salvage reply with
  | some call => simp [salvaged] at callless
  | none => simp [salvaged] at callless; simp [Heard.delivered, callless]

theorem delivered_of_calls {reply : HarnessInferenceResponse} {calls : List ModelToolCall}
    (effective : harness.effectiveCalls reply = calls) (nonempty : calls ≠ []) :
    (Heard.reply reply (harness.salvage reply)).delivered = calls.map ModelToolCall.item := by
  unfold effectiveCalls at effective
  cases salvaged : harness.salvage reply with
  | some call =>
    simp only [salvaged] at effective
    simp [Heard.delivered, ← effective]
  | none =>
    simp only [salvaged] at effective
    simp [Heard.delivered, effective, nonempty]

end AgentHarness

open AgentHarness in
/-- Every step passes on what it observes. -/
theorem TurnStep.keeps_told (steps : TurnStep harness before after)
    (told : harness.Told start before.1 before.2) : harness.Told start after.1 after.2 := by
  cases steps with
  | user | nudge => exact told.move [] (by simp [push]) (by simp [push])
  | compact => exact fun uncompacted => absurd (List.mem_append_right _ List.mem_cons_self) uncompacted
  | hear | ask | execute | batch | donePoint =>
    -- A reply is observed now, and owed until it is acted on.
    exact told.move [_] rfl (by simp [TurnView.note, deliveries, TurnNote.heard, owed])
  | pass view reply done silent =>
    exact told.move [] (by simp) (by simp [owed, delivered_of_callless done, silent])
  | say view reply text done said =>
    exact told.move [] (by simp [push])
      (by simp [push, owed, delivered_of_callless done, said])
  | call view reply calls effective nonempty =>
    exact told.move [] (by simp [push])
      (by simp [push, owed, delivered_of_calls effective nonempty,
        sessionItems_assistantToolCalls nonempty])
  | record =>
    exact told.move [_] rfl (by simp [TurnView.note, push, deliveries, TurnNote.heard, Heard.delivered, owed])
  | decide | finish | check => exact told

open AgentHarness in
theorem TurnStep.keeps_asked (steps : TurnStep harness before after)
    (told : harness.Told start before.1 before.2) (asked : AskedFaithfully start before.2.log) :
    AskedFaithfully start after.2.log := by
  cases steps with
  | ask view request own =>
    refine asked.snoc ?_
    rintro _ ⟨⟩ uncompacted
    -- Nothing is owed between a turn's steps when it asks.
    simpa [owed, own] using told uncompacted
  | compact | hear | execute | batch | record | donePoint =>
    exact asked.snoc fun request wrong => nomatch wrong
  | user | pass | say | call | decide | nudge | finish | check => exact asked

open AgentHarness in
theorem TurnStep.keeps_attentive
    (steps : TurnStep harness before after) (attentive : harness.Attentive before.2.log before.1) :
    harness.Attentive after.2.log after.1 := by
  cases steps with
  | hear view reply => exact ⟨view.log, rfl⟩
  | call view reply calls effective nonempty =>
    cases calls with
    | nil => exact absurd rfl nonempty
    | cons call calls => trivial
  | pass | say => trivial
  | user | decide | nudge | finish | check => exact attentive
  | compact | ask | donePoint => simp [Attentive, TurnView.note, TurnNote.isReply]
  | execute view pending | batch view pending | record view call pending =>
    cases pending with
    | nil => simp [Attentive, TurnView.note, TurnNote.isReply]
    | cons next pending => trivial

theorem turn_delivers
    (assembled : harness.tools.All (Assembled harness.codec harness.permissionPolicy)) {turnId : String}
    {session : SessionState} {userMessage : String} {host : ω} {outcome : Except TurnStop TurnOutcome}
    {reached : TurnState ω} (ran : harness.runTurnWithState turnId session userMessage host = (outcome, reached)) :
    AskedFaithfully (sessionItems session.messages) reached.log ∧
      ∀ done, outcome = .ok done → .compacted ∉ reached.log → sessionItems done.session.messages =
          sessionItems session.messages ++ deliveries (heeded reached.log) := by
  obtain ⟨⟨_, _, asked, _⟩, returned⟩ := harness.runTurnWithState_invariant turnId assembled ran
    (fun phase view => harness.Told (sessionItems session.messages) phase view ∧
      AskedFaithfully (sessionItems session.messages) view.log ∧ harness.Attentive view.log phase)
    ⟨fun _ => rfl, fun before _ _ split => absurd split (by simp), rfl⟩
    fun _ _ steps ⟨told, asked, attentive⟩ =>
      ⟨steps.keeps_told told, steps.keeps_asked told asked, steps.keeps_attentive attentive⟩
  refine ⟨asked, fun done same uncompacted => ?_⟩
  obtain ⟨own, ⟨told, _, attentive⟩ | ⟨reply, told, _, earlier, split⟩⟩ := returned done same
  · -- At rest, the last thing observed is no reply, so everything has been passed on.
    have all : heeded reached.log = reached.log := by
      have last : reached.log.getLast?.any TurnNote.isReply = false := attentive
      simp [heeded, last]
    rw [own, all, ← List.append_nil (sessionItems reached.session.messages)]
    exact told uncompacted
  · -- The reply that was just heard is owed, and it is the one that is not heeded.
    have split : reached.log = earlier ++ [.replied reply (harness.salvage reply)] := split
    have rest : heeded reached.log = earlier := by simp [heeded, split, TurnNote.isReply]
    have now := told uncompacted
    simp only [TurnState.core, TurnCore.view, split, deliveries_append, AgentHarness.owed] at now
    rw [own, rest]
    exact List.append_cancel_right (by simpa [deliveries, TurnNote.heard] using now)

inductive History : SessionState → List Heard → Prop where
  | new (sessionId : String) : History { sessionId } []
  | turn {ω : Type} {session : SessionState} {heard : List Heard} (earlier : History session heard)
      (harness : AgentHarness ω)
      (assembled : harness.tools.All (Assembled harness.codec harness.permissionPolicy))
      (turnId userMessage : String) (host : ω) (outcome : TurnOutcome) (reached : TurnState ω)
      (ran : harness.runTurnWithState turnId session userMessage host = (.ok outcome, reached))
      (uncompacted : .compacted ∉ reached.log) :
      History outcome.session (heard ++ (heeded reached.log).flatMap TurnNote.heard)

theorem History.items {session : SessionState} {heard : List Heard} (history : History session heard) :
    sessionItems session.messages = heard.flatMap Heard.delivered := by
  induction history with
  | new sessionId => rfl
  | turn earlier harness assembled turnId userMessage host outcome reached ran uncompacted ih =>
    rw [(turn_delivers assembled ran).2 outcome rfl uncompacted, ih, List.flatMap_append]
    rfl

/--
Without compaction the provider is sent, in order, what is delivered of everything heard so far,
in this turn and in the ones before it.

That is everything the model said and was answered, if each reply was plain:
a text next to calls is dropped, and a text that spells out a call is replaced by it.
-/
theorem provider_sent_what_was_heard {session : SessionState} {heard : List Heard}
    (history : History session heard) (harness : AgentHarness ω)
    (assembled : harness.tools.All (Assembled harness.codec harness.permissionPolicy))
    (turnId userMessage : String) (host : ω) (outcome : Except TurnStop TurnOutcome) (reached : TurnState ω)
    (ran : harness.runTurnWithState turnId session userMessage host = (outcome, reached))
    (before : List (TurnNote ω)) (request : HarnessInferenceRequest) (after : List (TurnNote ω))
    (asked : reached.log = before ++ .asked request :: after) (uncompacted : .compacted ∉ before)
    (provider model : String) :
    let sent := (buildProviderRequest provider model request).messages.flatMap ChatMessage.items
    let everything := heard ++ before.flatMap TurnNote.heard
    sent = everything.flatMap Heard.delivered ∧
      ((∀ event ∈ everything, event.Plain) → sent = everything.flatMap Heard.produced) := by
  intro sent everything
  have told : sent = everything.flatMap Heard.delivered := by
    rw [List.flatMap_append, ← history.items]
    exact (items_buildProviderRequest provider model request).trans
      ((turn_delivers assembled ran).1 before request after asked uncompacted)
  refine ⟨told, fun plain => told.trans ?_⟩
  exact List.flatMap_congr fun event member => (plain event member).delivered_eq

def talkingHarness (talks : Bool) : AgentHarness Bool where
  codec := { parse _ := none, render _ := "" }
  tools := ({} : ToolRegistry Bool).withTool
    (LeafTool.tool { name := "list_files", run := fun _ host => (.ok { content := .null }, host) })
  permissionPolicy := allowAllPermissionPolicy
  infer _ asked :=
    let call : ModelToolCall := { id := "a", name := "list_files", input := .obj [] }
    (.ok { provider := "", model := "",
           assistantMessage := if asked then some "done" else if talks then some "let me look" else none,
           toolCalls := if asked then [] else [call] }, true)
  maxIterations := 2

def talkingTurn (talks : Bool) : Except TurnStop TurnOutcome × TurnState Bool :=
  (talkingHarness talks).runTurnWithState "turn" { sessionId := "session" } "go" false

def Item.said : Item → Option String
  | .text content => some content
  | .call _ _ _ | .result _ _ => none

def TurnNote.textsSent : TurnNote ω → Option (List String)
  | .asked request =>
    some (((buildProviderRequest "" "" request).messages.flatMap ChatMessage.items).filterMap Item.said)
  | _ => none

/-- A text next to a call is not in the request that follows it. -/
theorem text_next_to_call_dropped : (talkingTurn true).2.log.filterMap TurnNote.textsSent = [[], []] ∧
      (((talkingTurn true).2.log.flatMap TurnNote.heard).flatMap Heard.produced).filterMap Item.said =
        ["let me look", "done"] := by
  decide +kernel

inductive NoteKind where
  | asked
  | replied
  | returned
  | batch
  | recorded
  | compacted
  | donePoint
  deriving DecidableEq, Repr

def TurnNote.kind : TurnNote ω → NoteKind
  | .asked _ => .asked
  | .replied _ _ => .replied
  | .returned _ _ => .returned
  | .batch _ => .batch
  | .recorded _ _ => .recorded
  | .compacted => .compacted
  | .donePoint _ _ _ => .donePoint

/-- Without the words, the second request is sent with the call and its result. -/
theorem call_and_result_sent : ∃ before request after, (talkingTurn false).2.log = before ++ .asked request :: after ∧
      before.map TurnNote.kind = [.asked, .replied, .returned, .batch, .recorded] ∧
      (buildProviderRequest "" "" request).messages.flatMap ChatMessage.items =
        ([] ++ before.flatMap TurnNote.heard).flatMap Heard.delivered := by
  have kinds : (talkingTurn false).2.log.map TurnNote.kind =
      [.asked, .replied, .returned, .batch, .recorded] ++ .asked :: [.replied, .donePoint] := by
    decide +kernel
  obtain ⟨before, rest, split, first, second⟩ := List.map_eq_append_iff.1 kinds
  obtain ⟨note, after, rfl, own, _⟩ := List.map_eq_cons_iff.1 second
  cases note with
  | asked request =>
    refine ⟨before, request, after, split, first, ?_⟩
    refine (provider_sent_what_was_heard (.new "session") (talkingHarness false)
      (.withTool .empty (.leaf _)) "turn" "go" false (talkingTurn false).1 (talkingTurn false).2
      Prod.mk.eta.symm before request after split ?_ "" "").1
    intro wrong
    have inside := List.mem_map_of_mem wrong (f := TurnNote.kind)
    rw [first] at inside
    exact absurd inside (by decide)
  | _ => exact absurd own (by simp [TurnNote.kind])

/-- However a turn ends, what it shows is reached by steps of the protocol. -/
theorem turn_refines (harness : AgentHarness ω)
    (assembled : harness.tools.All (Assembled harness.codec harness.permissionPolicy)) (turnId userMessage : String)
    (session : SessionState) (host : ω) :
    ∃ phase, Reaches harness { messages := session.messages, trace := [], log := [] } phase
      (harness.runTurnWithState turnId session userMessage host).2.core.view :=
  (harness.runTurnWithState_invariant turnId assembled rfl _ .refl fun _ _ steps reaches => reaches.step steps).1

theorem talkingTurn_refines : ∃ phase, Reaches (talkingHarness true) { messages := [], trace := [], log := [] } phase
      (talkingTurn true).2.core.view :=
  turn_refines (talkingHarness true) (.withTool .empty (.leaf _)) "turn" "go" { sessionId := "session" } false

end Codel00p
