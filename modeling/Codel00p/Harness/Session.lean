import Codel00p.Lib.Json

/-! The transcript of a session and its compaction. -/

namespace Codel00p

inductive SessionRole where
  | system
  | user
  | assistant
  | tool
  deriving DecidableEq, Repr

/-- The name a role is summarized under. -/
def SessionRole.label : SessionRole → String
  | .system => "System"
  | .user => "User"
  | .assistant => "Assistant"
  | .tool => "Tool"

structure ModelToolCall where
  id : String
  name : String
  input : Json

structure SessionMessage where
  role : SessionRole
  content : String
  toolCallId : Option String := none
  toolName : Option String := none
  payload : Option Json := none
  toolCalls : List ModelToolCall := []

namespace SessionMessage

def system (content : String) : SessionMessage := { role := .system, content }

def user (content : String) : SessionMessage := { role := .user, content }

/-- A text of the model. -/
def assistant (content : String) : SessionMessage := { role := .assistant, content }

def assistantToolCalls (toolCalls : List ModelToolCall) : SessionMessage :=
  { role := .assistant, content := "", toolCalls }

def toolResult (callId name content : String) : SessionMessage :=
  { role := .tool, content, toolCallId := some callId, toolName := some name }

end SessionMessage

structure SessionState where
  sessionId : String
  messages : List SessionMessage := []

def defaultCompactionRecentMessages : Nat := 4

/-- The most recent user message text. -/
def latestUserMessage (messages : List SessionMessage) : String :=
  ((messages.reverse.find? fun message => message.role = .user).map (·.content)).getD ""

/--
The first 200 bytes of a long message on one line.

Cutting inside a character stops the program, which is the case of no answer.
-/
def summaryExcerpt (content : String) : Option String :=
  let line := String.ofList (content.toList.map fun c => if c = '\n' then ' ' else c)
  if line.utf8ByteSize ≤ 200 then some line
  else (sliceTo 200 line.toList).map fun front => String.ofList front ++ "..."

def summarizeCompactedMessages (messages : List SessionMessage) (keepRecent : Nat) : Option String := do
  let compactedCount := messages.length - keepRecent
  let lines ← (messages.take compactedCount).zipIdx.mapM fun (message, index) => do
    let excerpt ← summaryExcerpt message.content
    return toString (index + 1) ++ ". " ++ message.role.label ++ ": " ++ excerpt
  return "\n".intercalate (("Compacted " ++ toString compactedCount ++ " older session messages.") :: lines)

namespace SessionState

variable (session : SessionState)

/-- Add a message at the end. -/
def pushMessage (message : SessionMessage) : SessionState :=
  { session with messages := session.messages ++ [message] }

def compactWithSummary (summary : String) (keepRecentMessages : Nat) : SessionState :=
  let retained := session.messages.drop (session.messages.length - min keepRecentMessages session.messages.length)
  { session with messages := SessionMessage.system ("Session summary:\n" ++ summary) :: retained }

end SessionState

end Codel00p
