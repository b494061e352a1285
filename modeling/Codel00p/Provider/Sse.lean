import Codel00p.Lib.Program
import Codel00p.Lib.Utf8
import Codel00p.Provider.Error

/-! Server-sent events: a response body is decoded chunk by chunk and handed on line by line. -/

namespace Codel00p

/-- A response to a streaming request. -/
structure SseResponse where
  /-- Whether the status is one of success. -/
  success : Bool := true
  /-- The status with its reason. -/
  status : String := "200 OK"
  retryAfter : Option String := none
  /-- The body as a text, which is only read when the status is no success. -/
  text : String := ""
  /-- The body as it arrives, up to the first transport error. -/
  chunks : List (Except String (List UInt8))

/--
The consumer of a stream: what it answers to the last of the payloads it was handed.

It may stop the stream, or fail.
-/
abbrev SseConsumer := List String → Except ProviderError Bool

/--
Decoding of a stream, over the payloads that were handed to the consumer.

An early return is an end of the program with the result that is returned.
-/
abbrev SseM := Program (Except ProviderError Unit) (List String)

/-- The payload of a `data:` line; blank lines and other lines have none. -/
def parseSseDataLine (line : String) : Option String := (stripFront line "data:").bind nonEmptyFilter

/-- The payload that ends a stream. -/
def sseDone : String := "[DONE]"

/-- Cut a buffer into the lines that have come to their end and what is left. -/
def drainLines : List Char → List (List Char) × List Char
  | [] => ([], [])
  | c :: rest =>
    if c = '\n' then ([c] :: (drainLines rest).1, (drainLines rest).2)
    else match (drainLines rest).1 with
      | [] => ([], c :: (drainLines rest).2)
      | line :: lines => ((c :: line) :: lines, (drainLines rest).2)

def linePayload (line : List Char) : Option String := parseSseDataLine (trimEnd (String.ofList line))

section

variable (consumer : SseConsumer)

def handOn (payload : String) : SseM Unit := do
  Program.change (· ++ [payload])
  match consumer (← Program.reads id) with
  | .error error => throw (.error error)
  | .ok true => throw (.ok ())
  | .ok false => pure ()

def takeLine (line : List Char) : SseM Unit :=
  match linePayload line with
  | none => pure ()
  | some data => if data = sseDone then throw (.ok ()) else handOn consumer data

/-- Take chunks, each of which is decoded on its own; what is left of the buffer is returned. -/
def takeChunks (provider : String) :
    List Char → List (Except String (List UInt8)) → SseM (List Char)
  | buffer, [] => pure buffer
  | _, .error message :: _ => throw (.error (.http provider message))
  | buffer, .ok chunk :: chunks => do
    let drained := drainLines (buffer ++ Utf8.lossy chunk)
    drained.1.forM (takeLine consumer)
    takeChunks provider drained.2 chunks

def flushLine (buffer : List Char) : SseM Unit :=
  match linePayload buffer with
  | none => pure ()
  | some data => if data = sseDone then pure () else handOn consumer data

def streamBody (provider : String) (chunks : List (Except String (List UInt8))) : SseM Unit := do
  let buffer ← takeChunks consumer provider [] chunks
  flushLine consumer buffer

end

/-- The result of a program and the payloads that were handed on, however it ended. -/
def streamed (run : Except (Except ProviderError Unit) Unit × List String) :
    Except ProviderError Unit × List String :=
  match run with
  | (.ok (), handed) => (.ok (), handed)
  | (.error result, handed) => (result, handed)

def streamSse (provider : String) (response : SseResponse) (consumer : SseConsumer) :
    Except ProviderError Unit × List String :=
  if response.success then streamed (Program.exec (streamBody consumer provider response.chunks) [])
  else
    let error := httpStatusError provider response.status response.text (retryAfterSeconds response.retryAfter)
    (.error error, [])

end Codel00p
