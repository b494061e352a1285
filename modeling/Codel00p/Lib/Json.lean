import Codel00p.Lib.Assoc
import Codel00p.Lib.Text

/-! JSON values with the accessors of a typical library. -/

namespace Codel00p

inductive JsonNumber where
  | posInt (value : UInt64)
  | negInt (value : Int64)
  | float (text : String)
  deriving DecidableEq, Repr

inductive Json where
  | null
  | bool (value : Bool)
  | number (value : JsonNumber)
  | string (text : String)
  | array (items : List Json)
  | object (fields : List (String × Json))

/-- Reading and writing JSON text. -/
structure JsonCodec where
  parse : String → Option Json
  render : Json → String

namespace Json

/-- An object with the given fields, later ones replacing earlier ones. -/
def obj (fields : List (String × Json)) : Json :=
  .object (fields.foldl (fun fields (key, value) => Assoc.insert key value fields) [])

/-- An integer that is known not to be negative. -/
def ofNat (value : Nat) : Json := .number (.posInt (UInt64.ofNat value))

def ofOption : Option String → Json
  | some text => .string text
  | none => .null

def asObject : Json → Option (List (String × Json))
  | .object fields => some fields
  | _ => none

def get (value : Json) (key : String) : Option Json := value.asObject.bind (·.lookup key)

@[simp] theorem get_object (fields : List (String × Json)) (key : String) :
    (object fields).get key = fields.lookup key := rfl

def asStr : Json → Option String
  | .string text => some text
  | _ => none

def asArray : Json → Option (List Json)
  | .array items => some items
  | _ => none

def asBool : Json → Option Bool
  | .bool value => some value
  | _ => none

/-- The value of an unsigned integer. -/
def asU64 : Json → Option Nat
  | .number (.posInt value) => some value.toNat
  | _ => none

/-- The value of a signed integer. -/
def asI64 : Json → Option Int
  | .number (.posInt value) => if value.toNat < 2 ^ 63 then some value.toNat else none
  | .number (.negInt value) => some value.toInt
  | _ => none

def isNull : Json → Bool
  | .null => true
  | _ => false

def isNumber : Json → Bool
  | .number _ => true
  | _ => false

/-- Whether a value is an integer of 64 bits. -/
def isInteger : Json → Bool
  | .number (.float _) => false
  | .number _ => true
  | _ => false

/-- The text under a field. -/
def getStr (value : Json) (key : String) : Option String := (value.get key).bind asStr

def typeName : Json → String
  | .null => "null"
  | .bool _ => "boolean"
  | .number _ => "number"
  | .string _ => "string"
  | .array _ => "array"
  | .object _ => "object"

end Json

end Codel00p
