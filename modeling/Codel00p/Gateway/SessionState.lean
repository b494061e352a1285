import Codel00p.Harness.Turn
import Codel00p.Session.Store

/-! Turns on sessions that are kept: a session is replayed before a turn, and what is new is appended after it. -/

namespace Codel00p.Gateway

inductive SessionRecord where
  | message (message : SessionMessage)
  | event (event : HarnessEvent)

def SessionRecord.message? : SessionRecord → Option SessionMessage
  | .message said => some said
  | .event _ => none

def sessionTitleMaxChars : Nat := 64

def takeWords : List String → String → String
  | [], truncated => truncated
  | word :: words, truncated =>
    let separator := if truncated.isEmpty then 0 else 1
    if sessionTitleMaxChars < truncated.length + separator + word.length + 3 then truncated
    else takeWords words ((if truncated.isEmpty then truncated else truncated ++ " ") ++ word)

def normalizedSessionTitle (content : String) : Option String :=
  let words := splitPieces isWhitespace content
  let title := " ".intercalate words
  if title.isEmpty then none
  else if title.length ≤ sessionTitleMaxChars then some title
  else
    let truncated := takeWords words ""
    let truncated := if truncated.isEmpty then String.ofList (title.toList.take (sessionTitleMaxChars - 3))
      else truncated
    some (trimEnd truncated ++ "...")

def sessionTitleFromMessages (messages : List SessionMessage) : Option String :=
  messages.findSome? fun message =>
    if message.role = .user then normalizedSessionTitle message.content else none

/-- Why a message is not answered. -/
inductive GatewayStop where
  | failed (message : String)
  | panicked
  deriving DecidableEq, Repr

/-- What keeping sessions needs: how records are turned into values, and the text for those that are not read. -/
structure SessionCodec where
  values : RecordValues SessionRecord
  invalid : String := ""

section

variable (codec : SessionCodec)

def sessionErrorText : SessionStoreError → String
  | .sessionAlreadyExists sessionId => "session already exists: " ++ sessionId
  | .sessionNotFound sessionId => "session not found: " ++ sessionId
  | .storage (.backend message) => "storage failed: backend failure: " ++ message
  | .storage .serialization => "storage failed: serialization failed: " ++ codec.invalid
  | .serialization => "serialization failed: " ++ codec.invalid

def sessionResult {α : Type} : Except SessionStoreError α → Except GatewayStop α
  | .ok value => .ok value
  | .error error => .error (.failed (sessionErrorText codec error))

/-- The session that a turn goes on with, and how many messages it has. -/
def prepareSessionState (store : SessionStore) (sessionId : String) : Except GatewayStop (SessionState × Nat) :=
  match store.metadata sessionId with
  | .error _ => .ok ({ sessionId }, 0)
  | .ok _ => do
    let records ← sessionResult codec (store.replay codec.values sessionId)
    let messages := records.filterMap (·.record.message?)
    return ({ sessionId, messages }, messages.length)

abbrev KeepM := Program GatewayStop SessionStore

def keep {α : Type} (operation : SessionStore → Except SessionStoreError α × SessionStore) : KeepM Unit := do
  let answer ← Program.perform operation
  discard (Program.ofExcept (sessionResult codec answer))

def appendRecords (sessionId : String) : List SessionRecord → KeepM Unit
  | [] => pure ()
  | record :: records => do
    keep codec (·.appendRecord codec.values sessionId record)
    appendRecords sessionId records

def titleIfMissing (sessionId : String) : Option String → KeepM Unit
  | none => pure ()
  | some title => do
    let metadata ← Program.reads (·.metadata sessionId)
    -- Metadata that cannot be read has no title.
    if (metadata.toOption.bind (·.title)).isSome then pure ()
    else keep codec (·.setSessionTitle sessionId title)

def turnMetadata (session : SessionState) (now : Nat) : SessionMetadata :=
  let metadata : SessionMetadata := { sessionId := session.sessionId, source := "cli", createdAt := some now }
  match sessionTitleFromMessages session.messages with
  | some title => metadata.withTitle title
  | none => metadata

def openTurnSession (now : Nat) (session : SessionState) : KeepM Unit := do
  match ← Program.perform (·.createSession (turnMetadata session now)) with
  | .ok () => pure ()
  | .error (.sessionAlreadyExists _) =>
    titleIfMissing codec session.sessionId (sessionTitleFromMessages session.messages)
  | .error error => throw (.failed (sessionErrorText codec error))

/-- Append what is new; a session with fewer messages than before the turn is cut out of range. -/
def appendTurn (session : SessionState) (events : List HarnessEvent) (start : Nat) : KeepM Unit :=
  if session.messages.length < start then throw .panicked
  else appendRecords codec session.sessionId
    ((session.messages.drop start).map .message ++ events.map .event)

def persistTurnOutcome (now : Nat) (session : SessionState) (events : List HarnessEvent) (start : Nat) :
    KeepM Unit := do
  openTurnSession codec now session
  appendTurn codec session events start

end

end Codel00p.Gateway
