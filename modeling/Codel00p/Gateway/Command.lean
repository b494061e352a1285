import Codel00p.Lib.Text

/-! What a chat message asks of the gateway, and the session that a conversation has. -/

namespace Codel00p.Gateway

/-- What an inbound message resolves to. -/
inductive GatewayCommand where
  | help
  | stop
  | approve
  | deny
  | message (text : String)
  deriving DecidableEq, Repr

/-- Read a message: a word after a slash controls the gateway, and all else is for the agent. -/
def parseCommand (text : String) : GatewayCommand :=
  let trimmed := trim text
  let word := (stripFront trimmed "/").map fun rest =>
    toAsciiLowercase ((splitPieces isWhitespace rest).head?.getD "")
  match word with
  | some "help" => .help
  | some "stop" | some "cancel" => .stop
  | some "approve" | some "yes" | some "allow" => .approve
  | some "deny" | some "no" | some "reject" => .deny
  | _ => .message trimmed

/-- What the gateway says about itself. -/
def helpText : String :=
  "I'm your codel00p agent. Send a message and I'll work on it in this conversation (I remember the "
    ++ "thread). Controls: /help, /stop, /approve, /deny."

def isSessionChar (c : Char) : Bool := c.isAlphanum || c = '_'

/-- Add a character to the id of a session; a run of others becomes one dash. -/
def sessionIdStep (state : List Char × Bool) (c : Char) : List Char × Bool :=
  if isSessionChar c then (state.1 ++ [c.toLower], false)
  else if state.2 then state
  else (state.1 ++ ['-'], true)

def conversationSessionId (conversation : String) : String :=
  -- The start already ends in a dash, so none follows it.
  let out := ((trim conversation).toList.foldl sessionIdStep ("gateway-".toList, true)).1
  let trimmed := (out.reverse.dropWhile (· = '-')).reverse
  if "gateway-".toList.length < trimmed.length then String.ofList trimmed else "gateway-default"

/-- Whether a character may stand in a file name. -/
def isStemChar (c : Char) : Bool := c.isAlphanum || c = '-' || c = '_'

/-- The stem of the file of a conversation: what may not stand there is an underscore. -/
def sanitizeConversation (conversation : String) : String :=
  let out := conversation.toList.map fun c => if isStemChar c then c else '_'
  if out.isEmpty then "_default" else String.ofList out

end Codel00p.Gateway
