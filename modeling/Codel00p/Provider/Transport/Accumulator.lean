import Codel00p.Provider.Response
import Codel00p.Provider.Sse

/-! Streams of events: what is delivered while they arrive, and the response that is put together from them. -/

namespace Codel00p

/-- What a sink is told while a response arrives. -/
inductive SinkEvent where
  | token (text : String)
  | toolCallDelta (index : Nat) (id : Option String) (name : Option String) (argsFragment : String)
  deriving DecidableEq, Repr

/-- The text so far after more was delivered; as long as there was no token, there is none. -/
def delivered (text : Option String) (sunk : List SinkEvent) : Option String :=
  sunk.foldl (fun text event => match event with
    | .token token => some (text.getD "" ++ token)
    | .toolCallDelta _ _ _ _ => text) text

/-- How a transport puts a response together from events. -/
structure Accumulator (ε : Type) where
  State : Type
  initial : State
  ingest : State → ε → State × List SinkEvent
  finish : State → Except ProviderError InferenceResponse

/-- Take events one after the other: the state they lead to, and what the sink was told. -/
def Accumulator.accumulate {ε : Type} (accumulator : Accumulator ε) (events : List ε) :
    accumulator.State × List SinkEvent :=
  events.foldl (fun (state, sunk) event =>
    ((accumulator.ingest state event).1, sunk ++ (accumulator.ingest state event).2))
    (accumulator.initial, [])

/-- End a stream: a response is put together only if the stream came to its end. -/
def Accumulator.conclude {ε : Type} (accumulator : Accumulator ε) (result : Except ProviderError Unit)
    (events : List ε) : Except ProviderError InferenceResponse × List SinkEvent :=
  let reached := accumulator.accumulate events
  match result with
  | .ok () => (accumulator.finish reached.1, reached.2)
  | .error error => (.error error, reached.2)

section

variable {ε : Type} (decode : String → Except String ε) (provider : String)

/-- Decode the payload that was handed over last; a stream goes on unless this fails. -/
def decodingConsumer : SseConsumer := fun payloads =>
  match payloads.getLast?.map decode with
  | some (.error message) => .error (.invalidResponse provider message)
  | _ => .ok false

/-- The events of the payloads that were handed over; one that cannot be decoded is the last one. -/
def decodedEvents (payloads : List String) : List ε := payloads.filterMap fun payload => (decode payload).toOption

def streamEvents (accumulator : Accumulator ε) (response : SseResponse) :
    Except ProviderError InferenceResponse × List SinkEvent :=
  let streamed := streamSse provider response (decodingConsumer decode provider)
  accumulator.conclude streamed.1 (decodedEvents decode streamed.2)

end

/-! ### Text -/

theorem delivered_append (text : Option String) (sunk later : List SinkEvent) :
    delivered text (sunk ++ later) = delivered (delivered text sunk) later :=
  List.foldl_append

theorem delivered_token (text : Option String) (token : String) :
    delivered text [.token token] = some (text.getD "" ++ token) := rfl

structure Collected (content : String) (hasContent : Bool) (text : Option String) : Prop where
  content_eq : content = text.getD ""
  hasContent_eq : hasContent = text.isSome

theorem Collected.thenSome {content : String} {hasContent : Bool} {text : Option String}
    (collected : Collected content hasContent text) : (if hasContent then some content else none) = text := by
  obtain ⟨rfl, rfl⟩ := collected
  cases text <;> rfl

theorem Collected.token {content : String} {hasContent : Bool} {text : Option String}
    (collected : Collected content hasContent text) (token : String) :
    Collected (content ++ token) true (delivered text [.token token]) := by
  rw [delivered_token, collected.content_eq]
  exact ⟨rfl, rfl⟩

theorem Accumulator.accumulate_concat {ε : Type} (accumulator : Accumulator ε) (events : List ε) (event : ε) :
    (accumulator.accumulate (events ++ [event])).1
      = (accumulator.ingest (accumulator.accumulate events).1 event).1 := by
  simp [Accumulator.accumulate]

theorem Accumulator.accumulate_invariant {ε : Type} (accumulator : Accumulator ε)
    (invariant : accumulator.State → Option String → Prop) (start : invariant accumulator.initial none)
    (step : ∀ state event text, invariant state text →
      invariant (accumulator.ingest state event).1 (delivered text (accumulator.ingest state event).2))
    (events : List ε) :
    invariant (accumulator.accumulate events).1 (delivered none (accumulator.accumulate events).2) := by
  have general : ∀ (events : List ε) (state : accumulator.State) (sunk : List SinkEvent),
      invariant state (delivered none sunk) →
        let reached := events.foldl (fun (state, sunk) event =>
          ((accumulator.ingest state event).1, sunk ++ (accumulator.ingest state event).2)) (state, sunk)
        invariant reached.1 (delivered none reached.2) := by
    intro events
    induction events with
    | nil => exact fun _ _ holds => holds
    | cons event events ih =>
      intro state sunk holds
      refine ih _ _ ?_
      rw [delivered_append]
      exact step state event _ holds
  exact general events _ [] start

theorem Accumulator.conclude_eq_ok {ε : Type} {accumulator : Accumulator ε}
    {result : Except ProviderError Unit} {events : List ε} {response : InferenceResponse}
    {sunk : List SinkEvent} (concluded : accumulator.conclude result events = (.ok response, sunk)) :
    accumulator.finish (accumulator.accumulate events).1 = .ok response ∧
      (accumulator.accumulate events).2 = sunk := by
  unfold Accumulator.conclude at concluded
  cases result with
  | ok _ => exact ⟨congrArg Prod.fst concluded, congrArg Prod.snd concluded⟩
  | error error => exact nomatch concluded

end Codel00p
