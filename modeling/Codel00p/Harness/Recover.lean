import Codel00p.Harness.Session

/-! Recovering a tool call that the model wrote as text. -/

namespace Codel00p

def fencedBlock (text : String) : Option String := do
  let (_, afterOpen) ← splitOnce text "\x60\x60\x60"
  let body := match splitOnce afterOpen "\n" with
    | some (_, rest) => rest
    | none => afterOpen
  let (inner, _) ← splitOnce body "\x60\x60\x60"
  return trim inner

/-- The tool name of a hand-written call. -/
def salvagedName (fields : List (String × Json)) : Option String :=
  ["name", "tool", "tool_name", "function"].findSome? fun key =>
    match fields.lookup key with
    | some (.string name) => some name
    | some (.object function) =>
      match function.lookup "name" with
      | some (.string name) => some name
      | _ => none
    | _ => none

/-- The arguments of a hand-written call. -/
def salvagedArguments (codec : JsonCodec) (fields : List (String × Json)) : Json :=
  (["arguments", "input", "parameters", "args"].findSome? fun key =>
    match fields.lookup key with
    | some (.object arguments) => some (Json.object arguments)
    | some (.string text) =>
      match codec.parse text with
      | some (.object arguments) => some (Json.object arguments)
      | _ => none
    | _ => none).getD (.object [])

def salvageToolCall (codec : JsonCodec) (text : String) (advertised : List String) :
    Option ModelToolCall := do
  let candidate := (fencedBlock text).getD (trim text)
  match ← codec.parse candidate with
  | .object fields =>
    let name ← salvagedName fields
    if name ∈ advertised then
      some { id := "salvaged-" ++ name, name, input := salvagedArguments codec fields }
    else none
  | _ => none

end Codel00p
