import Codel00p.Gateway.Serve

/-! Which connections the gateway survives: none of its steps may panic, abort, or wait for ever. -/

namespace Codel00p.Gateway

/-- Whether handling comes to a result or to an error of the connection. -/
def concludes {α : Type} : Except HandlingStop α → Bool
  | .ok _ => true
  | .error stop => stop.goesOn

section

variable {α β : Type}

theorem concludes_bind (first : Except HandlingStop α) (next : α → Except HandlingStop β) :
    concludes (first >>= next) = true ↔
      concludes first = true ∧ ∀ value, first = .ok value → concludes (next value) = true := by
  cases first with
  | error stop => exact ⟨fun goesOn => ⟨goesOn, nofun⟩, And.left⟩
  | ok value =>
    constructor
    · exact fun later => ⟨rfl, fun _ same => Except.ok.inj same ▸ later⟩
    · exact fun ⟨_, later⟩ => later value rfl

theorem concludes_atEnd (ending : Ending) {atClose : Except HandlingStop α} (closes : concludes atClose = true) :
    concludes (ending.atEnd atClose) = true ↔ ending ≠ .silent := by
  cases ending with
  | closed => simpa [Ending.atEnd] using closes
  | failed | silent => simp [Ending.atEnd, concludes, HandlingStop.goesOn]

end

/-! ### Reading -/

theorem concludes_lineText (line : List UInt8) : concludes (lineText line) = true := by
  unfold lineText
  split <;> rfl

theorem concludes_readLine (ending : Ending) (line : List UInt8) :
    concludes (readLine ending line) = true ↔ (isComplete line = true ∨ ending ≠ .silent) := by
  unfold readLine
  cases isComplete line with
  | true => simp [concludes_lineText]
  | false => simpa using concludes_atEnd ending (concludes_lineText line)

def endsHeaders (line : List UInt8) : Bool :=
  match lineText line with
  | .ok text => (trimEnd text).isEmpty
  | .error _ => true

/-- Reading headers concludes when a complete line ends them, or the connection ends. -/
theorem concludes_readHeaders (ending : Ending) (lines : List (List UInt8)) (head : RequestHead) :
    concludes (readHeaders ending lines head) = true ↔
      (ending = .silent → ∃ line ∈ lines.takeWhile isComplete, endsHeaders line = true) := by
  induction lines generalizing head with
  | nil =>
    rw [readHeaders, concludes_atEnd ending (show concludes _ = true from rfl)]
    simp
  | cons line rest ih =>
    rw [readHeaders, concludes_bind, concludes_readLine]
    by_cases silent : ending = .silent
    · subst silent
      cases complete : isComplete line with
      | false => simp [complete]
      | true =>
        -- The line is read, so it ends the headers, or one of the others has to.
        have read : readLine .silent line = lineText line := by rw [readLine, if_pos complete]
        rw [List.takeWhile_cons, complete, if_pos rfl, read]
        cases decoded : lineText line with
        | error stop =>
          simp [endsHeaders, decoded]
        | ok text =>
          have ends : endsHeaders line = (trimEnd text).isEmpty := by rw [endsHeaders, decoded]
          simp only [Except.ok.injEq, forall_eq', true_or, true_and, forall_const, List.mem_cons,
            exists_eq_or_imp, ends]
          cases (trimEnd text).isEmpty with
          | true => exact ⟨fun _ => .inl rfl, fun _ => rfl⟩
          | false => simpa using ih (head.addHeader (trimEnd text))
    · constructor
      · exact fun _ wrong => absurd wrong silent
      · refine fun _ => ⟨.inr silent, fun text _ => ?_⟩
        dsimp only
        split
        · rfl
        · exact (ih _).2 fun wrong => absurd wrong silent

def HeadSent : List (List UInt8) → Prop
  | [] => False
  | line :: rest =>
    isComplete line = true ∧
      ((lineText line).isOk = true → ∃ header ∈ rest.takeWhile isComplete, endsHeaders header = true)

theorem concludes_readHead (connection : Connection) : concludes (readHead connection) = true ↔
      (connection.cloneError = none → connection.ending = .silent → HeadSent (splitLines connection.incoming)) := by
  unfold readHead
  cases connection.cloneError with
  | some message => simp [concludes, HandlingStop.goesOn]
  | none =>
    dsimp only
    cases lines : splitLines connection.incoming with
    | nil =>
      rw [concludes_bind, concludes_atEnd _ (show concludes _ = true from rfl)]
      simp only [concludes_readHeaders, HeadSent]
      constructor
      · exact fun ⟨ends, _⟩ _ silent => ends silent
      · exact fun ends => ⟨ends trivial, fun _ _ silent => (ends trivial silent).elim⟩
    | cons line rest =>
      rw [concludes_bind, concludes_readLine]
      simp only [concludes_readHeaders, HeadSent]
      by_cases silent : connection.ending = .silent
      · cases complete : isComplete line with
        | false => simp [silent]
        | true =>
          have read : readLine connection.ending line = lineText line := by rw [readLine, if_pos complete]
          rw [read]
          cases text : lineText line <;> simp [silent, Except.isOk, Except.toBool]
      · simp [silent]

theorem concludes_allocate (connection : Connection) (size : Nat) : concludes (allocate connection size) = true ↔
      size ≤ isizeMax ∧ (size ≠ 0 → connection.allocates size = true) := by
  unfold allocate
  by_cases fits : isizeMax < size
  · simp [fits, concludes, HandlingStop.goesOn, Nat.not_le.2 fits]
  · rw [if_neg fits]
    by_cases none : size = 0
    · simp [none, concludes]
    · cases connection.allocates size <;>
        simp [none, concludes, HandlingStop.goesOn, Nat.not_lt.1 fits]

theorem concludes_readExact (ending : Ending) (size : Nat) (unread : List UInt8) :
    concludes (readExact ending size unread) = true ↔ (ending = .silent → size ≤ unread.length) := by
  unfold readExact
  by_cases sent : size ≤ unread.length
  · simp [sent, concludes]
  · rw [if_neg sent, concludes_atEnd ending (show concludes _ = true from rfl)]
    simp [sent]

/-! ### Checking -/

def pairAt (hex : List Char) (number : Nat) : Option (List Char) := slice (2 * number) (2 * number + 2) hex

def isByteAt (hex : List Char) (number : Nat) : Bool := ((pairAt hex number).bind byteFromHex).isSome

def AlignedPairs (hex : List Char) : Prop :=
  ∀ number, number < byteLength hex / 2 → (∀ earlier < number, isByteAt hex earlier = true) →
    (pairAt hex number).isSome = true

/-- Decoding pairs concludes when, up to the first one that is no byte, none splits a character. -/
theorem concludes_decodePairs (hex : List Char) (start count : Nat) :
    concludes (decodePairs hex ((List.range' start count).map (2 * ·))) = true ↔
      ∀ number, start ≤ number → number < start + count →
        (∀ earlier, start ≤ earlier → earlier < number → isByteAt hex earlier = true) →
        (pairAt hex number).isSome = true := by
  induction count generalizing start with
  | zero =>
    simp only [List.range'_zero, List.map_nil, decodePairs, Nat.add_zero, concludes, true_iff]
    intro number first last
    omega
  | succ count ih =>
    rw [List.range'_succ, List.map_cons, decodePairs]
    have later := ih (start + 1)
    have read : slice (2 * start) (2 * start + 2) hex = pairAt hex start := rfl
    rw [read]
    cases pair : pairAt hex start with
    | none =>
      -- The first pair is cut, and no pair comes before it.
      refine ⟨fun wrong => (by cases wrong), fun aligned => ?_⟩
      have cut := aligned start (Nat.le_refl _) (by omega) fun earlier _ _ => by omega
      rw [pair] at cut
      cases cut
    | some text =>
      dsimp only
      cases byte : byteFromHex text with
      | none =>
        -- The first pair is no byte, so no other pair is looked at.
        refine ⟨fun _ number first last bytes => ?_, fun _ => rfl⟩
        rcases Nat.eq_or_lt_of_le first with rfl | after
        · rw [pair]
          rfl
        · have wrong := bytes start (Nat.le_refl _) after
          rw [isByteAt, pair, Option.bind_some, byte] at wrong
          cases wrong
      | some value =>
        dsimp only
        rw [concludes_bind, later]
        have own : isByteAt hex start = true := by rw [isByteAt, pair, Option.bind_some, byte]; rfl
        constructor
        · intro ⟨rest, _⟩ number first last bytes
          rcases Nat.eq_or_lt_of_le first with rfl | after
          · rw [pair]
            rfl
          · exact rest number after (by omega) fun earlier inside => bytes earlier (by omega)
        · intro aligned
          refine ⟨fun number first last bytes => ?_, fun _ _ => rfl⟩
          refine aligned number (by omega) (by omega) fun earlier inside before => ?_
          rcases Nat.eq_or_lt_of_le inside with rfl | after
          · exact own
          · exact bytes earlier after before

theorem concludes_decodeHex (hex : String) :
    concludes (decodeHex hex) = true ↔ (byteLength hex.toList % 2 = 0 → AlignedPairs hex.toList) := by
  unfold decodeHex
  dsimp only
  split
  · next odd => exact ⟨fun _ even => absurd even odd, fun _ => rfl⟩
  · next even =>
    rw [List.range_eq_range', concludes_decodePairs]
    have even : byteLength hex.toList % 2 = 0 := by omega
    simp [AlignedPairs, even]

/--
A signature that is looked at can be decoded.

It is looked at when the request is an event with a recent timestamp, and there is a secret to check it with.
-/
def DecodableSignature (secrets : GatewaySecrets) (clock : Option Nat) (request : HttpRequest) : Prop :=
  request.method = "POST" → request.path = "/slack/events" → secrets.slackSigning.isSome = true →
    ∀ timestamp, request.header "x-slack-request-timestamp" = some timestamp → isRecent clock timestamp = true →
      ∀ hex, (request.header "x-slack-signature").bind (stripFront · "v0=") = some hex →
        byteLength hex.toList % 2 = 0 → AlignedPairs hex.toList

/-- Checking a signature concludes when it can be decoded. -/
theorem concludes_slackSignatureValid (mac : Mac) (clock : Option Nat) (secret : String) (request : HttpRequest) :
    concludes (slackSignatureValid mac clock secret request) = true ↔
      ∀ timestamp, request.header "x-slack-request-timestamp" = some timestamp → isRecent clock timestamp = true →
        ∀ hex, (request.header "x-slack-signature").bind (stripFront · "v0=") = some hex →
          byteLength hex.toList % 2 = 0 → AlignedPairs hex.toList := by
  unfold slackSignatureValid
  cases stamped : request.header "x-slack-request-timestamp" with
  | none => exact ⟨fun _ _ wrong => (nomatch wrong), fun _ => rfl⟩
  | some timestamp =>
    cases signed : request.header "x-slack-signature" with
    | none => exact ⟨fun _ _ _ _ _ wrong => (nomatch wrong), fun _ => rfl⟩
    | some provided =>
      dsimp only
      cases recent : isRecent clock timestamp with
      | false =>
        refine ⟨fun _ other same late => ?_, fun _ => rfl⟩
        obtain rfl := Option.some.inj same
        exact nomatch recent.symm.trans late
      | true =>
        rw [if_pos rfl, Option.bind_some]
        cases stripFront provided "v0=" with
        | none => exact ⟨fun _ _ _ _ _ wrong => (nomatch wrong), fun _ => rfl⟩
        | some hex =>
          dsimp only
          rw [concludes_bind, concludes_decodeHex]
          constructor
          · intro ⟨decodes, _⟩ other _ _ front same
            obtain rfl := Option.some.inj same
            exact decodes
          · intro decodes
            refine ⟨decodes timestamp rfl recent hex rfl, fun bytes _ => ?_⟩
            cases bytes <;> rfl

variable {σ : Type} (service : Service σ)

theorem concludes_dispatch (clock : Option Nat) (request : HttpRequest) :
    concludes (dispatch service clock request) = true ↔ DecodableSignature service.secrets clock request := by
  unfold dispatch DecodableSignature
  split
  · next method path =>
    refine ⟨fun _ posted => ?_, fun _ => rfl⟩
    exact absurd (method.symm.trans posted) (by decide)
  · next method path =>
    unfold slackReply
    cases service.secrets.slackSigning with
    | none => exact ⟨fun _ _ _ wrong => (nomatch wrong), fun _ => rfl⟩
    | some secret =>
      dsimp only
      rw [concludes_bind, concludes_slackSignatureValid]
      constructor
      · exact fun ⟨decodes, _⟩ _ _ _ => decodes
      · refine fun decodes => ⟨decodes method path rfl, fun valid _ => ?_⟩
        cases valid <;> rfl
  · next method path =>
    refine ⟨fun _ _ event => ?_, fun _ => by split <;> rfl⟩
    exact absurd (path.symm.trans event) (by decide)
  · next other _ =>
    exact ⟨fun _ posted event => absurd event (other posted), fun _ => rfl⟩

/-! ### Connections -/

structure Bearable (secrets : GatewaySecrets) (connection : Connection) : Prop where
  /-- A client that keeps the connection has sent the head of its request. -/
  headSent : connection.cloneError = none → connection.ending = .silent → HeadSent (splitLines connection.incoming)
  /-- The declared length may be set aside. -/
  fits : ∀ head rest, readHead connection = .ok (head, rest) →
    head.contentLength ≤ isizeMax ∧ (head.contentLength ≠ 0 → connection.allocates head.contentLength = true)
  /-- A client that keeps the connection has sent as many bytes as it declared. -/
  bodySent : ∀ head rest, readHead connection = .ok (head, rest) → connection.ending = .silent →
    head.contentLength ≤ rest.flatten.length
  /-- A signature that is looked at can be decoded. -/
  decodable : ∀ request, readRequest connection = .ok request → DecodableSignature secrets connection.clock request

theorem allocate_of_concludes {connection : Connection} {size : Nat}
    (concluded : concludes (allocate connection size) = true) : allocate connection size = .ok () := by
  unfold allocate at concluded ⊢
  split at concluded
  · exact nomatch concluded
  · next fits =>
    split at concluded
    · next memory => rw [if_neg fits, if_pos memory]
    · exact nomatch concluded

theorem concludes_readRequest (connection : Connection) : concludes (readRequest connection) = true ↔
      concludes (readHead connection) = true ∧ ∀ head rest, readHead connection = .ok (head, rest) →
          concludes (allocate connection head.contentLength) = true ∧
            concludes (readExact connection.ending head.contentLength rest.flatten) = true := by
  unfold readRequest
  rw [concludes_bind, Prod.forall]
  refine and_congr_right fun _ => forall₂_congr fun head rest => imp_congr_right fun _ => ?_
  rw [concludes_bind]
  refine and_congr_right fun set => ?_
  have aside := allocate_of_concludes set
  simp only [aside, forall_const, concludes_bind]
  exact ⟨fun read => read.1, fun read => ⟨read, fun _ _ => rfl⟩⟩

theorem concludes_receive (connection : Connection) :
    concludes (receive service connection) = true ↔ Bearable service.secrets connection := by
  unfold receive
  rw [concludes_bind, concludes_readRequest, concludes_readHead]
  simp only [concludes_dispatch, concludes_allocate, concludes_readExact]
  constructor
  · intro ⟨⟨headSent, rest⟩, decodable⟩
    exact
      { headSent, decodable
        fits := fun head lines read => (rest head lines read).1
        bodySent := fun head lines read => (rest head lines read).2 }
  · intro bearable
    refine ⟨⟨bearable.headSent, fun head rest read => ?_⟩, bearable.decodable⟩
    exact ⟨bearable.fits head rest read, bearable.bodySent head rest read⟩

theorem concludes_handleConnection (calm : ∀ message state, (service.runMessage message state).1 ≠ .error .panicked)
    (connection : Connection) (state : σ) :
    concludes (handleConnection service connection state).1 = true ↔ Bearable service.secrets connection := by
  have responds : ∀ status payload, concludes (respond service connection status payload) = true := by
    intro status payload
    unfold respond
    split <;> rfl
  rw [← concludes_receive]
  unfold handleConnection
  cases receive service connection with
  | error stop => rfl
  | ok dispatched =>
    refine ⟨fun _ => rfl, fun _ => ?_⟩
    cases dispatched with
    | reply status payload => exact responds status payload
    | run message =>
      have quiet := calm message state
      dsimp only [answer]
      generalize service.runMessage message state = ran at quiet
      rcases ran with ⟨(error | panicked) | reply, reached⟩
      · exact responds _ _
      · exact absurd rfl quiet
      · exact responds _ _

theorem serveLoop_concludes_iff {handled : Connection → Prop}
    (same : ∀ connection state, concludes (handleConnection service connection state).1 = true ↔ handled connection)
    (connections : List Connection) (state : σ) :
    ((serveLoop service connections state).1.length = connections.length ∧
      ∀ outcome ∈ (serveLoop service connections state).1, concludes outcome = true) ↔
      ∀ connection ∈ connections, handled connection := by
  induction connections generalizing state with
  | nil => simp [serveLoop]
  | cons connection rest ih =>
    rw [List.forall_mem_cons, ← same connection state, serveLoop]
    generalize handleConnection service connection state = ran
    rcases ran with ⟨stop | response, reached⟩
    · dsimp only
      cases goesOn : stop.goesOn with
      | true =>
        rw [← ih reached, if_pos rfl]
        simp [concludes, goesOn]
      | false =>
        -- The loop ends here, with an outcome that is no reply and no error of the connection.
        simp [concludes, goesOn]
    · dsimp only
      rw [← ih reached]
      simp [concludes]

/--
Connections are served one after the other just when all of them are bearable.

A request is then read, checked, and rejected or passed on, or there is an error of the connection.
-/
theorem gateway_robust_iff (calm : ∀ message state, (service.runMessage message state).1 ≠ .error .panicked)
    (connections : List Connection) (state : σ) :
    (∀ connection, concludes (receive service connection) = true ↔ Bearable service.secrets connection) ∧
      (((serveLoop service connections state).1.length = connections.length ∧
        ∀ outcome ∈ (serveLoop service connections state).1, concludes outcome = true) ↔
        ∀ connection ∈ connections, Bearable service.secrets connection) :=
  ⟨concludes_receive service, serveLoop_concludes_iff service (concludes_handleConnection service calm) connections
    state⟩

def answeringService : Service Unit where
  secrets := { webhook := some "token", slackSigning := some "signing" }
  decodeMessage _ := .error "expected value"
  decodeEnvelope _ := .error "expected value"
  mac _ _ := []
  codec := { parse _ := none, render _ := "" }
  runMessage _ state := (.ok "done", state)

def sends (request : String) : Connection := { incoming := request.toUTF8.data.toList }

/-- A liveness probe is served, and what follows it. -/
theorem probe_served : (∀ message state, (answeringService.runMessage message state).1 ≠ .error .panicked) ∧
      ∀ connection ∈ [sends "GET /healthz HTTP/1.1\r\n\r\n", sends ""],
        Bearable answeringService.secrets connection := by
  have calm : ∀ message state, (answeringService.runMessage message state).1 ≠ .error .panicked :=
    nofun
  refine ⟨calm, (gateway_robust_iff answeringService calm _ ()).2.1 ⟨?_, ?_⟩⟩
  · decide +kernel
  · decide +kernel

/-- A message that declares a length beyond all memory. -/
def oversized : Connection := sends "POST /message HTTP/1.1\r\nContent-Length: 9223372036854775808\r\n\r\n"

/-- An event with a signature whose first pair of bytes splits a character. -/
def misaligned : Connection :=
  sends "POST /slack/events HTTP/1.1\r\nX-Slack-Request-Timestamp: 0\r\nX-Slack-Signature: v0=aéb\r\n\r\n"

/-- Neither of them is rejected: handling them panics, and the next connection is not served. -/
theorem requests_end_gateway :
    serveLoop answeringService [oversized, sends "GET /healthz HTTP/1.1\r\n\r\n"] () = ([.error .panicked], ()) ∧
      serveLoop answeringService [misaligned, sends "GET /healthz HTTP/1.1\r\n\r\n"] () =
        ([.error .panicked], ()) := by
  decide +kernel

end Codel00p.Gateway
