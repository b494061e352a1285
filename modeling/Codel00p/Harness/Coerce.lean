import Codel00p.Harness.Permission

/-! Repairing and checking the arguments of a tool call against the tool's schema. -/

namespace Codel00p

/-- A tool's answer: its content for the model and the progress it reported on the way. -/
structure ToolResult where
  content : Json
  progress : List (String × Option String) := []

def requiredString (tool : String) (input : Json) (key : String) : Except HarnessError String :=
  match input.getStr key with
  | some text => .ok text
  | none => .error (.invalidToolInput tool ("missing string field `" ++ key ++ "`"))

theorem requiredString_eq_ok {tool key text : String} {input : Json}
    (found : requiredString tool input key = .ok text) : input.getStr key = some text := by
  unfold requiredString at found
  split at found
  · next given =>
    cases found
    exact given
  · exact nomatch found

def declaredType (properties : List (String × Json)) (field : String) : Option String :=
  (properties.lookup field).bind (·.getStr "type")

section

variable (codec : JsonCodec)

def decodeJsonObjectString (value : Json) : Json :=
  match value with
  | .string text =>
    match codec.parse text with
    | some (.object fields) => .object fields
    | _ => value
  | _ => value

/-- Bring a field's value into its declared type where that is unambiguous. -/
def coerceField (expected : String) (value : Json) : Json :=
  match expected with
  | "array" =>
    match value with
    | .array _ | .null => value
    | _ => .array [value]
  | "object" => decodeJsonObjectString codec value
  | "integer" | "number" =>
    match value.asStr.bind fun text => codec.parse (trim text) with
    | some (.number parsed) => .number parsed
    | _ => value
  | "boolean" =>
    match value.asStr.map fun text => toAsciiLowercase (trim text) with
    | some "true" => .bool true
    | some "false" => .bool false
    | _ => value
  | _ => value

def coerceDeclared (properties : List (String × Json)) (field : String) (value : Json) : Json :=
  match declaredType properties field with
  | some expected => coerceField codec expected value
  | none => value

/-- Repair common malformations of a call's arguments. -/
def coerceToolInput (schema input : Json) : Json :=
  if schema.getStr "type" ≠ some "object" then input
  else
    match decodeJsonObjectString codec input with
    | .object fields =>
      match schema.get "properties" with
      | some (.object properties) =>
        .object (fields.map fun (field, value) => (field, coerceDeclared codec properties field value))
      | _ => .object fields
    | other => other

theorem lookup_coerced (properties fields : List (String × Json)) (key : String) :
    (fields.map fun (field, value) => (field, coerceDeclared codec properties field value)).lookup key =
      (fields.lookup key).map (coerceDeclared codec properties key) := by
  induction fields with
  | nil => rfl
  | cons first rest ih =>
    obtain ⟨field, value⟩ := first
    by_cases same : key = field
    · subst same
      simp
    · have differ : (key == field) = false := by simpa using same
      simpa only [List.map_cons, List.lookup_cons, differ] using ih

theorem get_coerceToolInput {schema : Json} {properties : List (String × Json)}
    (typed : schema.getStr "type" = some "object")
    (declared : schema.get "properties" = some (.object properties)) (input : Json) (key : String) :
    (coerceToolInput codec schema input).get key =
      ((decodeJsonObjectString codec input).get key).map (coerceDeclared codec properties key) := by
  -- Only an object has fields, before and after.
  rw [coerceToolInput, if_neg (by simp [typed])]
  cases decodeJsonObjectString codec input with
  | object fields => simp [declared, Json.get_object, lookup_coerced]
  | _ => rfl

end

/-- Whether a value has a declared type; an unknown type is not held against it. -/
def matchesType (expected : String) (value : Json) : Bool :=
  match expected with
  | "integer" => value.isInteger
  | "string" | "number" | "boolean" | "array" | "object" | "null" => value.typeName == expected
  | _ => true

def missingFields (schema : Json) (fields : List (String × Json)) : List String :=
  (((schema.get "required").bind Json.asArray).getD []).filterMap fun entry =>
    match entry.asStr with
    | none => none
    | some field =>
      match fields.lookup field with
      | none | some .null => some ("missing required field `" ++ field ++ "`")
      | some _ => none

def mistypedFields (schema : Json) (fields : List (String × Json)) : List String :=
  match (schema.get "properties").bind Json.asObject with
  | none => []
  | some properties =>
    fields.filterMap fun (field, value) =>
      match declaredType properties field with
      | none => none
      | some expected =>
        if matchesType expected value then none
        else some ("field `" ++ field ++ "` must be " ++ expected ++ ", got " ++ value.typeName)

/-- Check a call's arguments against an object schema. -/
def validateToolInput (tool : String) (schema input : Json) : Except HarnessError Unit :=
  if schema.getStr "type" ≠ some "object" then .ok ()
  else
    match input.asObject with
    | none =>
      .error (.invalidToolInput tool ("expected a JSON object of arguments, got " ++ input.typeName))
    | some fields =>
      match missingFields schema fields ++ mistypedFields schema fields with
      | [] => .ok ()
      | problems =>
        .error (.invalidToolInput tool ("invalid arguments: " ++ "; ".intercalate problems))

end Codel00p
