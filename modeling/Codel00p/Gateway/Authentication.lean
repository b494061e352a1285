import Codel00p.Gateway.Serve

/-! What it takes to start a turn when both secrets are configured. -/

namespace Codel00p.Gateway

theorem foldl_differences (pairs : List (UInt8 × UInt8)) (diff : UInt8) :
    pairs.foldl (fun diff (x, y) => diff ||| (x ^^^ y)) diff = 0 ↔ diff = 0 ∧ ∀ pair ∈ pairs, pair.1 = pair.2 := by
  induction pairs generalizing diff with
  | nil => simp
  | cons pair pairs ih =>
    obtain ⟨x, y⟩ := pair
    rw [List.foldl_cons, ih, UInt8.or_eq_zero_iff, UInt8.xor_eq_zero_iff, List.forall_mem_cons, and_assoc]

theorem constantTimeEq_iff (a b : List UInt8) : constantTimeEq a b = true ↔ a = b := by
  unfold constantTimeEq
  split
  · next lengths => simpa using fun same => lengths (congrArg List.length same)
  · next lengths =>
    have lengths : a.length = b.length := not_not.1 lengths
    rw [decide_eq_true_iff, foldl_differences, and_iff_right rfl]
    constructor
    · intro same
      refine List.ext_getElem lengths fun index inA inB => ?_
      have pair : (a[index], b[index]) ∈ a.zip b := by
        have inside : index < (a.zip b).length := by simp [List.length_zip, inA, inB]
        have member := List.getElem_mem inside
        rwa [List.getElem_zip] at member
      exact same _ pair
    · rintro rfl pair member
      obtain ⟨index, inside, rfl⟩ := List.mem_iff_getElem.1 member
      simp

theorem asBytes_injective {text other : String} (same : asBytes text = asBytes other) : text = other := by
  have decoded := Utf8.decode_flatMap_utf8EncodeChar text.toList
  rw [show text.toList.flatMap String.utf8EncodeChar = asBytes text from rfl, same, asBytes,
    Utf8.decode_flatMap_utf8EncodeChar] at decoded
  exact String.toList_injective (Except.ok.inj decoded).symm

theorem authorize_iff (secret : String) (header : Option String) :
    authorize (some secret) header = true ↔ header = some ("Bearer " ++ secret) := by
  unfold authorize bearer
  dsimp only
  cases header with
  | none => simp
  | some header =>
    rw [Option.bind_some]
    constructor
    · intro authorized
      split at authorized
      · next token found =>
        have same : token = secret := asBytes_injective ((constantTimeEq_iff _ _).1 authorized)
        rw [stripFront_eq_some.1 found, same]
      · exact nomatch authorized
    · intro carries
      rw [Option.some.inj carries, stripFront_append]
      exact (constantTimeEq_iff _ _).2 rfl

def WithinWindow (clock : Option Nat) (timestamp : String) : Prop :=
  ∃ seconds now, parseUsize timestamp = some seconds ∧ clock = some now ∧
    now ≤ seconds + signatureWindow ∧ seconds ≤ now + signatureWindow

theorem isRecent_iff (clock : Option Nat) (timestamp : String) :
    isRecent clock timestamp = true ↔ WithinWindow clock timestamp := by
  unfold isRecent WithinWindow
  cases parseUsize timestamp with
  | none => simp
  | some seconds =>
    cases clock with
    | none => simp
    | some now =>
      rw [decide_eq_true_iff]
      constructor
      · exact fun close => ⟨seconds, now, rfl, rfl, by omega, by omega⟩
      · rintro ⟨_, _, ⟨⟩, ⟨⟩, late, early⟩
        omega

def Signed (mac : Mac) (clock : Option Nat) (secret : String) (request : HttpRequest) : Prop :=
  ∃ timestamp hex, request.header "x-slack-request-timestamp" = some timestamp ∧ WithinWindow clock timestamp ∧
    request.header "x-slack-signature" = some ("v0=" ++ hex) ∧
    decodeHex hex = .ok (some (mac (asBytes secret) (asBytes (baseString timestamp request.body))))

theorem slackSignatureValid_iff (mac : Mac) (clock : Option Nat) (secret : String) (request : HttpRequest) :
    slackSignatureValid mac clock secret request = .ok true ↔ Signed mac clock secret request := by
  unfold slackSignatureValid
  constructor
  · -- Each check that is passed gives one of the facts.
    intro valid
    split at valid
    · next timestamp provided stamped signed =>
      split at valid
      · next recent =>
        split at valid
        · exact nomatch valid
        · next hex found =>
          obtain ⟨decoded, own, valid⟩ := Except.bind_eq_ok.1 valid
          cases decoded with
          | none => exact nomatch valid
          | some bytes =>
            have same := of_decide_eq_true (Except.ok.inj valid)
            refine ⟨timestamp, hex, stamped, (isRecent_iff _ _).1 recent, ?_, same ▸ own⟩
            rw [signed, stripFront_eq_some.1 found]
      · exact nomatch valid
    · exact nomatch valid
  · rintro ⟨timestamp, hex, stamped, recent, signed, own⟩
    rw [stamped, signed]
    dsimp only
    rw [if_pos ((isRecent_iff _ _).2 recent), stripFront_append]
    dsimp only
    rw [own]
    exact congrArg Except.ok (decide_eq_true rfl)

variable {σ : Type} (service : Service σ)

def Authentic (token secret : String) (clock : Option Nat) (request : HttpRequest) (message : MessageRequest) : Prop :=
  request.method = "POST" ∧
    (request.path = "/message" ∧ request.header "authorization" = some ("Bearer " ++ token) ∧
        service.decodeMessage request.body = .ok message ∨
      request.path = "/slack/events" ∧ Signed service.mac clock secret request ∧
        parseSlackEvent (service.decodeEnvelope request.body) =
          .ok (.message message.conversation message.user message.text))

theorem messageReply_eq_run (body : String) (message : MessageRequest) :
    messageReply service body = .run message ↔ service.decodeMessage body = .ok message := by
  unfold messageReply
  split
  · next error wrong => simp [wrong, fieldReply]
  · next own right => simp [right]

theorem slackEventReply_eq_run (body : String) (message : MessageRequest) :
    slackEventReply service body = .run message ↔ parseSlackEvent (service.decodeEnvelope body) =
        .ok (.message message.conversation message.user message.text) := by
  unfold slackEventReply
  obtain ⟨conversation, user, text⟩ := message
  split <;> simp [*, fieldReply]

/-- A request is dispatched to the agent just when it is authentic. -/
theorem dispatch_eq_run {token secret : String} (webhook : service.secrets.webhook = some token)
    (slackSigning : service.secrets.slackSigning = some secret) (clock : Option Nat) (request : HttpRequest)
    (message : MessageRequest) :
    dispatch service clock request = .ok (.run message) ↔ Authentic service token secret clock request message := by
  unfold dispatch Authentic
  split
  · next method path =>
    refine ⟨fun wrong => (nomatch wrong), fun ⟨posted, _⟩ => ?_⟩
    exact absurd (method.symm.trans posted) (by decide)
  · next method path =>
    -- An event is run when its signature is valid and it is a message.
    rw [slackReply, slackSigning]
    dsimp only
    rw [Except.bind_eq_ok]
    constructor
    · rintro ⟨valid, own, run⟩
      cases valid with
      | false => exact nomatch run
      | true =>
        refine ⟨method, .inr ⟨path, (slackSignatureValid_iff _ _ _ _).1 own, ?_⟩⟩
        exact (slackEventReply_eq_run service _ message).1 (Except.ok.inj run)
    · rintro ⟨_, ⟨posted, _⟩ | ⟨_, signed, event⟩⟩
      · exact absurd (path.symm.trans posted) (by decide)
      · refine ⟨true, (slackSignatureValid_iff _ _ _ _).2 signed, ?_⟩
        exact congrArg Except.ok ((slackEventReply_eq_run service _ message).2 event)
  · next method path =>
    rw [webhook]
    constructor
    · intro run
      split at run
      · next authorized =>
        refine ⟨method, .inl ⟨path, (authorize_iff _ _).1 authorized, ?_⟩⟩
        exact (messageReply_eq_run service _ message).1 (Except.ok.inj run)
      · exact nomatch run
    · rintro ⟨_, ⟨_, carries, decoded⟩ | ⟨event, _⟩⟩
      · rw [if_pos ((authorize_iff _ _).2 carries)]
        exact congrArg Except.ok ((messageReply_eq_run service _ message).2 decoded)
      · exact absurd (path.symm.trans event) (by decide)
  · next noEvent noMessage =>
    refine ⟨fun wrong => (nomatch wrong), ?_⟩
    rintro ⟨posted, ⟨path, _⟩ | ⟨path, _⟩⟩
    · exact absurd path (noMessage posted)
    · exact absurd path (noEvent posted)

theorem handleConnection_of_not_run {connection : Connection}
    (other : ∀ message, receive service connection ≠ .ok (.run message))
    (runMessage : MessageRequest → σ → Except GatewayStop String × σ) (state : σ) :
    handleConnection { service with runMessage } connection state =
      ((handleConnection service connection state).1, state) := by
  have same : receive { service with runMessage } connection = receive service connection := rfl
  unfold handleConnection
  rw [same]
  cases decided : receive service connection with
  | error stop => rfl
  | ok dispatched =>
    cases dispatched with
    | reply status payload => rfl
    | run message => exact absurd decided (other message)

/--
With both secrets, a turn is started just by a posted message with the token or by a signed event in the window.

Every other connection is answered without the agent.
-/
theorem turn_authenticated {token secret : String} (webhook : service.secrets.webhook = some token)
    (slackSigning : service.secrets.slackSigning = some secret) (connection : Connection) :
    (∀ message, receive service connection = .ok (.run message) ↔ ∃ request, readRequest connection = .ok request ∧
        Authentic service token secret connection.clock request message) ∧
      ((∀ message, receive service connection ≠ .ok (.run message)) →
        ∀ runMessage state, handleConnection { service with runMessage } connection state =
          ((handleConnection service connection state).1, state)) := by
  refine ⟨fun message => ?_, fun other runMessage state => handleConnection_of_not_run service other runMessage state⟩
  rw [receive, Except.bind_eq_ok]
  exact exists_congr fun request => and_congr_right fun _ =>
    dispatch_eq_run service webhook slackSigning connection.clock request message

def guardedService : Service Nat where
  secrets := { webhook := some "token", slackSigning := some "signing" }
  decodeMessage body := .ok { conversation := "C1", user := "U1", text := body }
  decodeEnvelope body :=
    let event : InnerEvent := { kind := "message", channel := some "C1", user := some "U1", text := some body }
    .ok { kind := "event_callback", event := some event }
  mac key message := [UInt8.ofNat key.length, UInt8.ofNat message.length]
  codec := { parse _ := none, render _ := "" }
  runMessage _ turns := (.ok "done", turns + 1)

def Dispatched.message? : Dispatched → Option MessageRequest
  | .reply _ _ => none
  | .run message => some message

theorem eq_run_of_message? {decided : Except HandlingStop Dispatched} {message : MessageRequest}
    (runs : decided.toOption.bind Dispatched.message? = some message) : decided = .ok (.run message) := by
  rcases decided with _ | (_ | _)
  · exact nomatch runs
  · exact nomatch runs
  · exact congrArg (Except.ok ∘ Dispatched.run) (Option.some.inj runs)

/-- A connection on which some text is sent. -/
def posts (request : String) : Connection := { incoming := request.toUTF8.data.toList }

def tokenMessage : Connection := posts "POST /message HTTP/1.1\nAuthorization: Bearer token\nContent-Length: 2\n\nhi"

def signedEvent : Connection :=
  { posts "POST /slack/events HTTP/1.1\nX-Slack-Request-Timestamp: 60\nX-Slack-Signature: v0=0708\nContent-Length: 2\n\nhi"
    with clock := some 120 }

/-- Both of them start a turn. -/
theorem guarded_turns : (∃ request, readRequest tokenMessage = .ok request ∧
      Authentic guardedService "token" "signing" tokenMessage.clock request ⟨"C1", "U1", "hi"⟩) ∧
    ∃ request, readRequest signedEvent = .ok request ∧
      Authentic guardedService "token" "signing" signedEvent.clock request ⟨"C1", "U1", "hi"⟩ := by
  have first := (turn_authenticated guardedService rfl rfl tokenMessage).1 ⟨"C1", "U1", "hi"⟩
  have second := (turn_authenticated guardedService rfl rfl signedEvent).1 ⟨"C1", "U1", "hi"⟩
  exact ⟨first.1 (eq_run_of_message? (by decide +kernel)), second.1 (eq_run_of_message? (by decide +kernel))⟩

end Codel00p.Gateway
