import Codel00p.Lib.Json

/-! Values handed to scripts and back: the conversions between JSON and script values. -/

namespace Codel00p

/--
A script value.

A float is told by its text, or none if it is not finite.
A map has its entries in the order of their keys.
-/
inductive Dynamic where
  | unit
  | bool (value : Bool)
  | int (value : Int64)
  | float (text : Option String)
  | string (text : String)
  | array (items : List Dynamic)
  | map (entries : List (String × Dynamic))
  | other (text : String)

section

/- The text of the double closest to an integer. -/
variable (closest : UInt64 → String)

def numberToDynamic : JsonNumber → Dynamic
  | .posInt value => if value.toNat < 2 ^ 63 then .int (Int64.ofNat value.toNat) else .float (closest value)
  | .negInt value => .int value
  | .float text => .float text

mutual

def jsonToDynamic : Json → Dynamic
  | .null => .unit
  | .bool value => .bool value
  | .number value => numberToDynamic closest value
  | .string text => .string text
  | .array items => .array (itemsToDynamic items)
  | .object fields =>
    .map ((fieldsToDynamic fields).foldl (fun entries (key, value) => Assoc.insert key value entries) [])

/-- The items of an array as script values. -/
def itemsToDynamic : List Json → List Dynamic
  | [] => []
  | item :: items => jsonToDynamic item :: itemsToDynamic items

def fieldsToDynamic : List (String × Json) → List (String × Dynamic)
  | [] => []
  | (key, value) :: fields => (key, jsonToDynamic value) :: fieldsToDynamic fields

end

end

/-- A signed integer as a number, which keeps the sign apart. -/
def intToJson (value : Int64) : Json :=
  .number (if value.toInt < 0 then .negInt value else .posInt (UInt64.ofNat value.toInt.toNat))

mutual

def dynamicToJson : Dynamic → Json
  | .unit => .null
  | .bool value => .bool value
  | .int value => intToJson value
  | .float (some text) => .number (.float text)
  | .float none => .null
  | .string text => .string text
  | .array items => .array (itemsToJson items)
  | .map entries => .object (entriesToJson entries)
  | .other text => .string text

/-- The items of a script array as JSON values. -/
def itemsToJson : List Dynamic → List Json
  | [] => []
  | item :: items => dynamicToJson item :: itemsToJson items

/-- The entries of a script map as fields. -/
def entriesToJson : List (String × Dynamic) → List (String × Json)
  | [] => []
  | (key, value) :: entries => (key, dynamicToJson value) :: entriesToJson entries

end

inductive Json.Every (number : JsonNumber → Prop) (object : List (String × Json) → Prop) : Json → Prop
  | null : Every number object .null
  | bool {value : Bool} : Every number object (.bool value)
  | number {value : JsonNumber} (own : number value) : Every number object (.number value)
  | string {text : String} : Every number object (.string text)
  | array {items : List Json} (each : ∀ item ∈ items, Every number object item) :
      Every number object (.array items)
  | object {fields : List (String × Json)} (own : object fields)
      (each : ∀ field ∈ fields, Every number object field.2) : Every number object (.object fields)

/-- The integers that are kept with a sign are the negative ones. -/
def JsonNumber.Built : JsonNumber → Prop
  | .negInt value => value.toInt < 0
  | _ => True

/-- No integer above the signed ones of 64 bits. -/
def JsonNumber.Signed : JsonNumber → Prop
  | .posInt value => value.toNat < 2 ^ 63
  | _ => True

/-- A value as the JSON library builds it, with the keys of every object in order. -/
def Json.Built : Json → Prop := Json.Every JsonNumber.Built Assoc.Sorted

/-- A value all of whose integers have 64 bits with a sign. -/
def Json.Signed : Json → Prop := Json.Every JsonNumber.Signed fun _ => True

variable (closest : UInt64 → String)

theorem itemsToDynamic_eq (items : List Json) : itemsToDynamic closest items = items.map (jsonToDynamic closest) := by
  induction items with
  | nil => rw [itemsToDynamic, List.map_nil]
  | cons item items ih => rw [itemsToDynamic, List.map_cons, ih]

theorem fieldsToDynamic_eq (fields : List (String × Json)) :
    fieldsToDynamic closest fields = fields.map fun field => (field.1, jsonToDynamic closest field.2) := by
  induction fields with
  | nil => rw [fieldsToDynamic, List.map_nil]
  | cons field fields ih => rw [fieldsToDynamic, List.map_cons, ih]

theorem itemsToJson_eq (items : List Dynamic) : itemsToJson items = items.map dynamicToJson := by
  induction items with
  | nil => rw [itemsToJson, List.map_nil]
  | cons item items ih => rw [itemsToJson, List.map_cons, ih]

theorem entriesToJson_eq (entries : List (String × Dynamic)) :
    entriesToJson entries = entries.map fun entry => (entry.1, dynamicToJson entry.2) := by
  induction entries with
  | nil => rw [entriesToJson, List.map_nil]
  | cons entry entries ih => rw [entriesToJson, List.map_cons, ih]

theorem foldl_insert_sorted {β : Type} {entries done : List (String × β)} (sorted : Assoc.Sorted (done ++ entries)) :
    entries.foldl (fun entries (key, value) => Assoc.insert key value entries) done = done ++ entries := by
  induction entries generalizing done with
  | nil => simp
  | cons entry entries ih =>
    have last : Assoc.insert entry.1 entry.2 done = done ++ [entry] := by
      have before : ∀ other ∈ done, other.1 < entry.1 := fun other member =>
        (List.pairwise_append.1 sorted).2.2 other member entry List.mem_cons_self
      clear ih sorted
      induction done with
      | nil => rfl
      | cons other done ih =>
        have smaller := before other List.mem_cons_self
        have apart : entry.1 ≠ other.1 := fun same => String.lt_irrefl _ (same ▸ smaller)
        have behind : ¬entry.1 < other.1 := fun greater => String.lt_irrefl _ (String.lt_trans greater smaller)
        rw [Assoc.insert, if_neg apart, if_neg behind, ih fun later member => before later (.tail _ member)]
        rfl
    show entries.foldl _ (Assoc.insert entry.1 entry.2 done) = _
    rw [last, ih (by simpa using sorted)]
    simp

theorem number_roundTrip {value : JsonNumber} (built : value.Built) :
    dynamicToJson (numberToDynamic closest value) = .number value ↔ value.Signed := by
  cases value with
  | posInt value =>
    by_cases small : value.toNat < 2 ^ 63
    · refine iff_of_true ?_ small
      have kept : (Int64.ofNat value.toNat).toInt = value.toNat := Int64.toInt_ofNat_of_lt small
      rw [numberToDynamic, if_pos small, dynamicToJson, intToJson, kept,
        if_neg (Int.not_lt.2 (Int.natCast_nonneg _)), Int.toNat_natCast, UInt64.ofNat_toNat]
    · refine iff_of_false ?_ small
      rw [numberToDynamic, if_neg small, dynamicToJson]
      simp
  | negInt value =>
    have negative : value.toInt < 0 := built
    refine iff_of_true ?_ trivial
    rw [numberToDynamic, dynamicToJson, intToJson, if_pos negative]
  | float text =>
    refine iff_of_true ?_ trivial
    rw [numberToDynamic, dynamicToJson]

/--
A JSON value comes back from a script unchanged exactly when its integers fit.

Any value may be nested in any other.
An integer of 64 bits without a sign that is above the signed ones becomes the closest double.
-/
theorem script_roundTrip_iff {value : Json} (built : value.Built) :
    dynamicToJson (jsonToDynamic closest value) = value ↔ value.Signed := by
  unfold Json.Built at built
  induction built with
  | null => exact iff_of_true (by rw [jsonToDynamic, dynamicToJson]) .null
  | bool => exact iff_of_true (by rw [jsonToDynamic, dynamicToJson]) .bool
  | number own =>
    rw [jsonToDynamic, number_roundTrip closest own]
    exact ⟨.number, fun | .number own => own⟩
  | string => exact iff_of_true (by rw [jsonToDynamic, dynamicToJson]) .string
  | @array items each ih =>
    have kept : items.map (fun item => dynamicToJson (jsonToDynamic closest item)) = items ↔
        ∀ item ∈ items, dynamicToJson (jsonToDynamic closest item) = item := by
      simpa using List.map_inj_left (g := id)
    rw [jsonToDynamic, dynamicToJson, itemsToDynamic_eq, itemsToJson_eq, List.map_map, Json.array.injEq]
    refine kept.trans ((forall₂_congr ih).trans ⟨.array, fun | .array each => each⟩)
  | @object fields sorted each ih =>
    have kept : fields.map (fun field => (field.1, dynamicToJson (jsonToDynamic closest field.2))) =
        fields ↔ ∀ field ∈ fields, dynamicToJson (jsonToDynamic closest field.2) = field.2 := by
      have same := List.map_inj_left (l := fields) (g := id)
        (f := fun field => (field.1, dynamicToJson (jsonToDynamic closest field.2)))
      simpa [Prod.ext_iff] using same
    -- The fields are in order already, so the script's map has them in the same order.
    have ordered : Assoc.Sorted (fields.map fun field => (field.1, jsonToDynamic closest field.2)) :=
      List.pairwise_map.2 sorted
    rw [jsonToDynamic, dynamicToJson, fieldsToDynamic_eq, foldl_insert_sorted ordered, List.nil_append,
      entriesToJson_eq, List.map_map, Json.object.injEq]
    refine kept.trans ((forall₂_congr ih).trans ⟨.object trivial, fun | .object _ each => each⟩)

/-- A nested value with a negative number comes back. -/
theorem script_roundTrip_nested :
    dynamicToJson (jsonToDynamic (fun _ => "") (.array [.object [("n", .number (.negInt (-1)))], .null])) =
      .array [.object [("n", .number (.negInt (-1)))], .null] :=
  (script_roundTrip_iff _ (.array (by
    simp only [List.mem_cons, List.not_mem_nil, or_false]
    rintro _ (rfl | rfl)
    · exact .object (by simp [Assoc.Sorted]) (by simpa using .number (show (-1 : Int64).toInt < 0 by decide))
    · exact .null))).2 (.array (by
    simp only [List.mem_cons, List.not_mem_nil, or_false]
    rintro _ (rfl | rfl)
    · exact .object trivial (by simpa using .number trivial)
    · exact .null))

/-- The greatest integer of 64 bits comes back as a float. -/
theorem script_roundTrip_loses : dynamicToJson (jsonToDynamic (fun _ => "1.8446744073709552e19")
      (.number (.posInt 18446744073709551615))) = .number (.float "1.8446744073709552e19") ∧
    Json.number (.float "1.8446744073709552e19") ≠ .number (.posInt 18446744073709551615) := by
  refine ⟨?_, by simp⟩
  rw [jsonToDynamic, numberToDynamic, if_neg (by decide), dynamicToJson]

end Codel00p
