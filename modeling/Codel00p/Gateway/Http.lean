import Codel00p.Lib.Text
import Codel00p.Lib.Utf8

/-! Requests as they come over a connection: a request line, headers, and a body of the declared length. -/

namespace Codel00p.Gateway

/-- How a connection goes on after the bytes that a client has sent. -/
inductive Ending where
  | closed
  | failed (message : String)
  /-- The client sends no more, and keeps the connection. -/
  | silent
  deriving DecidableEq, Repr

structure Connection where
  incoming : List UInt8
  ending : Ending := .closed
  /-- How duplicating the handle fails, if it does. -/
  cloneError : Option String := none
  /-- How writing the response fails, if it does. -/
  writeError : Option String := none
  /-- Whether there is memory for a number of bytes. -/
  allocates : Nat → Bool := fun _ => true
  /-- The seconds since the epoch, unless the clock is before it. -/
  clock : Option Nat := some 0

/-- Why handling a connection does not come to a reply. -/
inductive HandlingStop where
  | io (message : String)
  | panicked
  | aborted
  /-- Handling waits for bytes that do not come. -/
  | blocked
  deriving DecidableEq, Repr

def splitLines : List UInt8 → List (List UInt8)
  | [] => []
  | byte :: rest =>
    if byte = 10 then [byte] :: splitLines rest
    else match splitLines rest with
      | [] => [[byte]]
      | line :: lines => (byte :: line) :: lines

/-- What a read comes to where there are no more bytes. -/
def Ending.atEnd {α : Type} (atClose : Except HandlingStop α) : Ending → Except HandlingStop α
  | .closed => atClose
  | .failed message => .error (.io message)
  | .silent => .error .blocked

/-- Whether a line has come to its end. -/
def isComplete (line : List UInt8) : Bool := line.getLast? = some 10

def lineText (line : List UInt8) : Except HandlingStop String :=
  match Utf8.decode line with
  | .ok text => .ok (String.ofList text)
  | .error _ => .error (.io "stream did not contain valid UTF-8")

/-- Read a line; a last line without a newline is one when the connection is closed. -/
def readLine (ending : Ending) (line : List UInt8) : Except HandlingStop String :=
  if isComplete line then lineText line else ending.atEnd (lineText line)

/-- A request line and headers, with names in lower case. -/
structure RequestHead where
  method : String
  path : String
  headers : List (String × String) := []
  contentLength : Nat := 0

def parseRequestLine (line : String) : RequestHead :=
  let parts := splitPieces isWhitespace line
  let target := (parts[1]?).getD ""
  { method := (parts[0]?).getD "", path := String.ofList (target.toList.takeWhile (· ≠ '?')) }

/-- Add a header line; one without a colon is passed over. -/
def RequestHead.addHeader (head : RequestHead) (trimmed : String) : RequestHead :=
  match splitOnce trimmed ":" with
  | none => head
  | some (name, value) =>
    let name := toAsciiLowercase (trim name)
    let value := trim value
    { head with
      headers := head.headers ++ [(name, value)]
      contentLength := if name = "content-length" then (parseUsize value).getD 0 else head.contentLength }

def readHeaders (ending : Ending) : List (List UInt8) → RequestHead → Except HandlingStop (RequestHead × List (List UInt8))
  | [], head => ending.atEnd (.ok (head, []))
  | line :: rest, head => do
    let text ← readLine ending line
    let trimmed := trimEnd text
    if trimmed.isEmpty then return (head, rest)
    else readHeaders ending rest (head.addHeader trimmed)

def readHead (connection : Connection) : Except HandlingStop (RequestHead × List (List UInt8)) :=
  match connection.cloneError with
  | some message => .error (.io message)
  | none =>
    match splitLines connection.incoming with
    | [] => do
      let line ← connection.ending.atEnd (.ok "")
      readHeaders connection.ending [] (parseRequestLine line)
    | line :: rest => do
      let line ← readLine connection.ending line
      readHeaders connection.ending rest (parseRequestLine line)

/-- The largest size of an allocation. -/
def isizeMax : Nat := 2 ^ 63 - 1

/-- Set bytes aside for a body. -/
def allocate (connection : Connection) (size : Nat) : Except HandlingStop Unit :=
  if isizeMax < size then .error .panicked
  else if size = 0 || connection.allocates size then .ok ()
  else .error .aborted

def readExact (ending : Ending) (size : Nat) (unread : List UInt8) : Except HandlingStop (List UInt8) :=
  if size ≤ unread.length then .ok (unread.take size)
  else ending.atEnd (.error (.io "failed to fill whole buffer"))

structure HttpRequest where
  method : String
  path : String
  headers : List (String × String)
  body : String

def HttpRequest.header (request : HttpRequest) (name : String) : Option String := request.headers.lookup name

def readRequest (connection : Connection) : Except HandlingStop HttpRequest := do
  let (head, rest) ← readHead connection
  allocate connection head.contentLength
  let body ← readExact connection.ending head.contentLength rest.flatten
  return { method := head.method, path := head.path, headers := head.headers,
           body := String.ofList (Utf8.lossy body) }

end Codel00p.Gateway
