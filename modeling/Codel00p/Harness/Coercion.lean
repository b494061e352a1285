import Mathlib.Data.List.Forall2
import Codel00p.Harness.Coerce

/-! What the repair of a call's arguments changes, and what it leaves as it is. -/

namespace Codel00p

def Declares (schema : Json) (field : String) : Prop :=
  ∃ properties, schema.get "properties" = some (.object properties) ∧ (declaredType properties field).isSome = true

/-- The same names in the same order, with another value only where the schema declares a type. -/
def OnlyDeclared (schema : Json) (before after : List (String × Json)) : Prop :=
  List.Forall₂ (fun was is => is.1 = was.1 ∧ (¬Declares schema was.1 → is.2 = was.2)) before after

section

variable (codec : JsonCodec)

/-! ### One field -/

variable {expected : String} {schema : Json}

theorem coerceField_eq_self {value : Json} (plain : value.asStr = none)
    (wrapped : expected = "array" → value.asArray.isSome = true) : coerceField codec expected value = value := by
  unfold coerceField
  split
  · -- An array is there already.
    have items := wrapped rfl
    cases value with
    | array items => rfl
    | _ => simp [Json.asArray] at items
  · cases value with
    | string text => simp [Json.asStr] at plain
    | _ => rfl
  iterate 3 · simp [plain]
  · rfl

theorem coerceField_cases (expected : String) (value : Json) : coerceField codec expected value = value ∨
    (coerceField codec expected value).asStr = none ∧
      (expected = "array" → (coerceField codec expected value).asArray.isSome = true) := by
  unfold coerceField
  split
  · cases value with
    | array items => exact .inl rfl
    | null => exact .inl rfl
    | _ => exact .inr ⟨rfl, fun _ => rfl⟩
  · cases value with
    | string text =>
      simp only [decodeJsonObjectString]
      split
      · exact .inr ⟨rfl, fun wrong => by simp at wrong⟩
      · exact .inl rfl
    | _ => exact .inl rfl
  · split
    · exact .inr ⟨rfl, fun wrong => by simp at wrong⟩
    · exact .inl rfl
  · split
    · exact .inr ⟨rfl, fun wrong => by simp at wrong⟩
    · exact .inl rfl
  · split
    · exact .inr ⟨rfl, fun wrong => by simp at wrong⟩
    · exact .inr ⟨rfl, fun wrong => by simp at wrong⟩
    · exact .inl rfl
  · exact .inl rfl

theorem coerceField_idem (expected : String) (value : Json) :
    coerceField codec expected (coerceField codec expected value) = coerceField codec expected value := by
  rcases coerceField_cases codec expected value with same | ⟨plain, wrapped⟩
  · rw [same, same]
  · exact coerceField_eq_self codec plain wrapped

/-- The types of which a text can be an unintended spelling. -/
def repairableTypes : List String := ["array", "object", "integer", "number", "boolean"]

theorem coerceField_of_not_mem (other : expected ∉ repairableTypes) (value : Json) :
    coerceField codec expected value = value := by
  unfold coerceField
  split
  iterate 5 · exact absurd (by simp [repairableTypes]) other
  · rfl

theorem matchesType_string (repaired : expected ∈ repairableTypes) (text : String) :
    matchesType expected (.string text) = false := by
  simp only [repairableTypes, List.mem_cons, List.not_mem_nil, or_false] at repaired
  rcases repaired with rfl | rfl | rfl | rfl | rfl
  all_goals simp [matchesType, Json.typeName, Json.isInteger]

theorem coerceField_of_matchesType {value : Json} (fits : matchesType expected value = true) :
    coerceField codec expected value = value := by
  by_cases repaired : expected ∈ repairableTypes
  · refine coerceField_eq_self codec ?_ ?_
    · cases value with
      | string text => simp [matchesType_string repaired] at fits
      | _ => rfl
    · rintro rfl
      cases value with
      | array items => rfl
      | _ => simp [matchesType, Json.typeName] at fits
  · exact coerceField_of_not_mem codec repaired value

theorem coerceDeclared_of_not_declares {properties : List (String × Json)}
    (declared : schema.get "properties" = some (.object properties)) {field : String}
    (untyped : ¬Declares schema field) (value : Json) : coerceDeclared codec properties field value = value := by
  unfold coerceDeclared
  cases typed : declaredType properties field with
  | none => rfl
  | some expected => exact absurd ⟨properties, declared, by simp [typed]⟩ untyped

theorem coerceDeclared_idem (properties : List (String × Json)) (field : String) (value : Json) :
    coerceDeclared codec properties field (coerceDeclared codec properties field value) =
      coerceDeclared codec properties field value := by
  unfold coerceDeclared
  cases declaredType properties field with
  | none => rfl
  | some expected => exact coerceField_idem codec expected value

/-! ### All arguments -/

theorem coerceToolInput_object (typed : schema.getStr "type" = some "object")
    (fields : List (String × Json)) : coerceToolInput codec schema (.object fields) =
      match schema.get "properties" with
      | some (.object properties) =>
        .object (fields.map fun (field, value) => (field, coerceDeclared codec properties field value))
      | _ => .object fields := by
  rw [coerceToolInput, if_neg (by simp [typed])]
  rfl

theorem coerceToolInput_onlyDeclared (schema : Json) (fields : List (String × Json)) :
    ∃ repaired, coerceToolInput codec schema (.object fields) = .object repaired ∧
      OnlyDeclared schema fields repaired := by
  have unchanged : OnlyDeclared schema fields fields := List.forall₂_same.2 fun entry _ => ⟨rfl, fun _ => rfl⟩
  by_cases typed : schema.getStr "type" = some "object"
  · rw [coerceToolInput_object codec typed]
    split
    · next properties declared =>
      refine ⟨_, rfl, ?_⟩
      rw [OnlyDeclared, List.forall₂_map_right_iff]
      exact List.forall₂_same.2 fun entry _ =>
        ⟨rfl, fun untyped => coerceDeclared_of_not_declares codec declared untyped entry.2⟩
    · exact ⟨fields, rfl, unchanged⟩
  · exact ⟨fields, by rw [coerceToolInput, if_pos typed], unchanged⟩

theorem coerceToolInput_text {text : String} {fields : List (String × Json)}
    (typed : schema.getStr "type" = some "object") (read : codec.parse text = some (.object fields)) :
    coerceToolInput codec schema (.string text) = coerceToolInput codec schema (.object fields) := by
  have decoded : decodeJsonObjectString codec (.string text) = .object fields := by
    simp [decodeJsonObjectString, read]
  rw [coerceToolInput_object codec typed, coerceToolInput, if_neg (by simp [typed]), decoded] <;> rfl

theorem coerceToolInput_other (schema : Json) {input : Json} (other : input.asObject = none)
    (unreadable : schema.getStr "type" = some "object" → ∀ text, input = .string text →
      ∀ fields, codec.parse text ≠ some (.object fields)) : coerceToolInput codec schema input = input := by
  rw [coerceToolInput]
  split
  · rfl
  · next typed =>
    -- Nothing is decoded, and what is no object has no fields to repair.
    have kept : decodeJsonObjectString codec input = input := by
      cases input with
      | string text =>
        simp only [decodeJsonObjectString]
        split
        · next fields read => exact absurd read (unreadable (Decidable.not_not.1 typed) text rfl fields)
        · rfl
      | _ => rfl
    rw [kept]
    cases input with
    | object fields => cases other
    | _ => rfl

theorem coerceToolInput_object_idem (schema : Json) (fields : List (String × Json)) :
    coerceToolInput codec schema (coerceToolInput codec schema (.object fields)) =
      coerceToolInput codec schema (.object fields) := by
  by_cases typed : schema.getStr "type" = some "object"
  · rw [coerceToolInput_object codec typed fields]
    split
    · next properties declared =>
      rw [coerceToolInput_object codec typed, declared]
      simp [coerceDeclared_idem]
    · next undeclared =>
      rw [coerceToolInput_object codec typed]
      split
      · next properties declared => exact absurd declared (undeclared properties)
      · rfl
  · simp [coerceToolInput, typed]

theorem coerceToolInput_idem (schema input : Json) :
    coerceToolInput codec schema (coerceToolInput codec schema input) = coerceToolInput codec schema input := by
  by_cases held : ∃ text fields, schema.getStr "type" = some "object" ∧ input = .string text ∧
      codec.parse text = some (.object fields)
  · obtain ⟨text, fields, typed, rfl, read⟩ := held
    rw [coerceToolInput_text codec typed read, coerceToolInput_object_idem]
  · by_cases object : ∃ fields, input = .object fields
    · obtain ⟨fields, rfl⟩ := object
      exact coerceToolInput_object_idem codec schema fields
    · -- Neither an object nor a text that holds one: nothing is changed at all.
      have other : input.asObject = none := by
        cases input with
        | object fields => exact absurd ⟨fields, rfl⟩ object
        | _ => rfl
      have kept := coerceToolInput_other codec schema other fun typed text spelled fields read =>
        held ⟨text, fields, typed, spelled, read⟩
      rw [kept, kept]

/-- Arguments that pass their check are left alone. -/
theorem coerceToolInput_of_valid {tool : String} {input : Json}
    (valid : validateToolInput tool schema input = .ok ()) : coerceToolInput codec schema input = input := by
  by_cases typed : schema.getStr "type" = some "object"
  · rw [validateToolInput, if_neg (by simp [typed])] at valid
    cases input with
    | object fields =>
      rw [coerceToolInput_object codec typed]
      split
      · next properties declared =>
        -- No field is mistyped, so no field is repaired.
        have clean : mistypedFields schema fields = [] := by
          simp only [Json.asObject] at valid
          split at valid
          · next none => exact (List.append_eq_nil_iff.1 none).2
          · cases valid
        have kept : ∀ entry ∈ fields, coerceDeclared codec properties entry.1 entry.2 = entry.2 := by
          intro entry member
          rw [mistypedFields, declared] at clean
          have passed := List.filterMap_eq_nil_iff.1 clean entry member
          unfold coerceDeclared
          cases typed : declaredType properties entry.1 with
          | none => rfl
          | some expected =>
            simp only [typed] at passed
            split at passed
            · next fits => exact coerceField_of_matchesType codec fits
            · cases passed
        refine congrArg Json.object ?_
        rw [← List.map_id' fields, List.map_map]
        exact List.map_congr_left fun entry member => Prod.ext rfl (kept entry member)
      · rfl
    | _ => cases valid
  · simp [coerceToolInput, typed]

/--
Repairing arguments is conservative.

A text that holds an object is taken for that object. The fields of an object keep their names, and
their values where the schema declares no type; any other arguments stay as they are. Doing it again
changes nothing, and neither does doing it to arguments that pass their check.
-/
theorem coercion_conservative (schema input : Json) :
    (∀ fields, input = .object fields → ∃ repaired, coerceToolInput codec schema input = .object repaired ∧
        OnlyDeclared schema fields repaired) ∧
      (∀ text fields, schema.getStr "type" = some "object" → input = .string text →
        codec.parse text = some (.object fields) →
          coerceToolInput codec schema input = coerceToolInput codec schema (.object fields)) ∧
      (input.asObject = none → (schema.getStr "type" = some "object" → ∀ text, input = .string text →
        ∀ fields, codec.parse text ≠ some (.object fields)) → coerceToolInput codec schema input = input) ∧
      coerceToolInput codec schema (coerceToolInput codec schema input) = coerceToolInput codec schema input ∧
      ∀ tool, validateToolInput tool schema input = .ok () → coerceToolInput codec schema input = input := by
  refine ⟨?_, ?_, fun other => coerceToolInput_other codec schema other, coerceToolInput_idem codec schema input,
    fun tool valid => coerceToolInput_of_valid codec valid⟩
  · rintro fields rfl
    exact coerceToolInput_onlyDeclared codec schema fields
  · rintro text fields typed rfl read
    exact coerceToolInput_text codec typed read

end

def pairCodec : JsonCodec where
  parse text := if text = "\x7b\"path\":\"a\"\x7d" then some (.object [("path", .string "a")])
    else if text = "3" then some (.number (.posInt 3)) else none
  render _ := ""

def countSchema : Json :=
  .object [("type", .string "object"), ("properties", .object [("count", .object [("type", .string "integer")])])]

/-- A text that holds an object is replaced as a whole, although none of the fields is declared. -/
theorem coercion_decodes_text :
    coerceToolInput pairCodec countSchema (.string "\x7b\"path\":\"a\"\x7d") = .object [("path", .string "a")] ∧
      (Json.string "\x7b\"path\":\"a\"\x7d").get "path" = none ∧ declaredType
        [("count", .object [("type", .string "integer")])] "path" = none := by
  refine ⟨?_, rfl, ?_⟩
  · simp [coerceToolInput, countSchema, decodeJsonObjectString, pairCodec, coerceDeclared, declaredType, Json.getStr,
      Json.asStr, List.lookup_cons]
  · simp [declaredType, List.lookup_cons]

/-- A number that was sent as a text is repaired, and the field beside it is left alone. -/
theorem coercion_conservative_count :
    (∀ fields, Json.object [("count", .string "3"), ("note", .string "3")] = .object fields → ∃ repaired,
        coerceToolInput pairCodec countSchema (.object [("count", .string "3"), ("note", .string "3")]) =
            .object repaired ∧ OnlyDeclared countSchema fields repaired) ∧
      coerceToolInput pairCodec countSchema (.object [("count", .string "3"), ("note", .string "3")]) =
        .object [("count", .number (.posInt 3)), ("note", .string "3")] := by
  refine ⟨(coercion_conservative pairCodec countSchema _).1, ?_⟩
  simp [coerceToolInput, countSchema, decodeJsonObjectString, pairCodec, coerceDeclared, declaredType, Json.getStr,
    Json.asStr, List.lookup_cons, coerceField, trim, isWhitespace]


end Codel00p
