import Codel00p.Lib.Json

/-! References from a pipeline step to the outputs of earlier steps. -/

namespace Codel00p

/-- The marker that opens a reference. -/
def openBraces : List Char := ['\x7b', '\x7b']

/-- The marker that closes a reference. -/
def closeBraces : List Char := ['\x7d', '\x7d']

/-- One step of a path into a value. -/
def stepInto (cursor : Json) (segment : String) : Option Json :=
  match cursor with
  | .object fields => fields.lookup segment
  | .array items => (parseUsize segment).bind (items[·]?)
  | _ => none

/-- Look up a dotted path, with indices in brackets or after dots, in the context. -/
def lookupPath (expr : String) (context : List (String × Json)) : Option Json :=
  let normalized := expr.toList.filterMap fun c =>
    if c = '[' then some '.' else if c = ']' then none else some c
  match splitPieces (· == '.') (String.ofList normalized) with
  | [] => none
  | first :: segments => do
    let cursor ← context.lookup first
    segments.foldlM stepInto cursor

/-- The expression inside a text that is exactly one template. -/
def wholeTemplate (text : String) : Option String :=
  let chars := text.toList
  if openBraces.isPrefixOf chars && closeBraces.isSuffixOf (chars.drop 2) then
    let inner := (chars.drop 2).take (chars.length - 4)
    if (splitOnceChars openBraces inner).isSome || (splitOnceChars closeBraces inner).isSome then none
    else some (String.ofList inner)
  else none

section

variable (codec : JsonCodec) (context : List (String × Json))

def referenceText (expr : String) : String :=
  match lookupPath (trim expr) context with
  | some (.string text) => text
  | some value => codec.render value
  | none => ""

/--
Replace every reference of a text from left to right.

Each turn uses up both markers of a reference, so the length of the text bounds the turns.
-/
def substitute : Nat → List Char → List Char
  | 0, rest => rest
  | turns + 1, rest =>
    match splitOnceChars openBraces rest with
    | none => rest
    | some (before, after) =>
      match splitOnceChars closeBraces after with
      -- No closing marker: the rest stays as it is.
      | none => rest
      | some (expr, tail) =>
        before ++ (referenceText codec context (String.ofList expr)).toList ++ substitute turns tail

/-- Resolve a text: one whole template keeps the value's type, anything else stays a text. -/
def resolveString (text : String) : Json :=
  match wholeTemplate (trim text) with
  | some expr => (lookupPath (trim expr) context).getD .null
  | none => .string (String.ofList (substitute codec context text.length text.toList))

mutual

def resolveReferences : Json → Json
  | .string text => resolveString codec context text
  | .array items => .array (resolveItems items)
  | .object fields => .object (resolveFields fields)
  | other => other

def resolveItems : List Json → List Json
  | [] => []
  | item :: items => resolveReferences item :: resolveItems items

def resolveFields : List (String × Json) → List (String × Json)
  | [] => []
  | (field, value) :: fields => (field, resolveReferences value) :: resolveFields fields

end

end

end Codel00p
