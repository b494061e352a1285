import Codel00p.Gateway.Http

/-! Who may start a turn: a bearer token for messages, and a signature for events of Slack. -/

namespace Codel00p.Gateway

/-- The token of an authorization header. -/
def bearer (header : String) : Option String := stripFront header "Bearer "

/-- Compare bytes without telling where they differ first. -/
def constantTimeEq (a b : List UInt8) : Bool :=
  if a.length ≠ b.length then false
  else (a.zip b).foldl (fun diff (x, y) => diff ||| (x ^^^ y)) 0 = 0

def asBytes (text : String) : List UInt8 := text.toList.flatMap String.utf8EncodeChar

def authorize (configuredSecret authorizationHeader : Option String) : Bool :=
  match configuredSecret with
  | none => true
  | some secret =>
    match authorizationHeader.bind bearer with
    | some token => constantTimeEq (asBytes token) (asBytes secret)
    | none => false

structure GatewaySecrets where
  webhook : Option String := none
  slackSigning : Option String := none

/-! ### Signatures -/

/-- The value of a hexadecimal digit. -/
def hexDigit (c : Char) : Option Nat :=
  if '0' ≤ c ∧ c ≤ '9' then some (c.toNat - '0'.toNat)
  else if 'a' ≤ c ∧ c ≤ 'f' then some (c.toNat - 'a'.toNat + 10)
  else if 'A' ≤ c ∧ c ≤ 'F' then some (c.toNat - 'A'.toNat + 10)
  else none

/-- A byte in hexadecimal, with an optional plus sign. -/
def byteFromHex (text : List Char) : Option UInt8 := do
  let digits ← match text with
    | [] | ['+'] | ['-'] => none
    | '+' :: digits => some digits
    | digits => some digits
  let values ← digits.mapM hexDigit
  let value := values.foldl (fun value digit => value * 16 + digit) 0
  if value < 256 then some (UInt8.ofNat value) else none

def decodePairs (hex : List Char) : List Nat → Except HandlingStop (Option (List UInt8))
  | [] => .ok (some [])
  | index :: rest =>
    match slice index (index + 2) hex with
    | none => .error .panicked
    | some pair =>
      match byteFromHex pair with
      -- The first pair that is no byte ends the decoding.
      | none => .ok none
      | some byte => do
        let bytes ← decodePairs hex rest
        return bytes.map (byte :: ·)

/-- The bytes of a text in hexadecimal. -/
def decodeHex (hex : String) : Except HandlingStop (Option (List UInt8)) :=
  let length := byteLength hex.toList
  if length % 2 ≠ 0 then .ok none
  else decodePairs hex.toList ((List.range (length / 2)).map (2 * ·))

/-- A keyed hash of some bytes. -/
abbrev Mac := List UInt8 → List UInt8 → List UInt8

/-- The most seconds between the time of a signature and now. -/
def signatureWindow : Nat := 60 * 5

def isRecent (clock : Option Nat) (timestamp : String) : Bool :=
  match parseUsize timestamp, clock with
  | some seconds, some now => max now seconds - min now seconds ≤ signatureWindow
  | _, _ => false

/-- What a signature of a body is made of. -/
def baseString (timestamp body : String) : String := "v0:" ++ timestamp ++ ":" ++ body

def slackSignatureValid (mac : Mac) (clock : Option Nat) (signingSecret : String) (request : HttpRequest) :
    Except HandlingStop Bool :=
  match request.header "x-slack-request-timestamp", request.header "x-slack-signature" with
  | some timestamp, some provided =>
    if isRecent clock timestamp then
      match stripFront provided "v0=" with
      | none => .ok false
      | some hex => do
        match ← decodeHex hex with
        | none => return false
        | some expected =>
          return expected = mac (asBytes signingSecret) (asBytes (baseString timestamp request.body))
    else .ok false
  | _, _ => .ok false

/-! ### Events of Slack -/

structure InnerEvent where
  kind : String
  channel : Option String := none
  user : Option String := none
  text : Option String := none
  botId : Option String := none
  subtype : Option String := none

structure Envelope where
  kind : String
  challenge : Option String := none
  event : Option InnerEvent := none

inductive SlackEvent where
  | urlVerification (challenge : String)
  | message (conversation user text : String)
  | ignored
  deriving DecidableEq, Repr

def classifyEvent (event : InnerEvent) : SlackEvent :=
  if event.kind ≠ "message" then .ignored
  -- Messages of bots and changes of messages do not start turns.
  else if event.botId.isSome || event.subtype.isSome then .ignored
  else
    match event.channel, event.user, event.text with
    | some conversation, some user, some text => .message conversation user text
    | _, _, _ => .ignored

/-- Read an event from an envelope that could be decoded, or the text of what is wrong with it. -/
def parseSlackEvent (envelope : Except String Envelope) : Except String SlackEvent := do
  let envelope ← envelope.mapError ("invalid Slack event JSON: " ++ ·)
  match envelope.kind with
  | "url_verification" =>
    match envelope.challenge with
    | some challenge => return .urlVerification challenge
    | none => throw "invalid Slack event JSON: url_verification missing challenge"
  | "event_callback" => return (envelope.event.map classifyEvent).getD .ignored
  | _ => return .ignored

end Codel00p.Gateway
