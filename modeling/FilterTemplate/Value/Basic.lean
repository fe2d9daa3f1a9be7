/-
  FilterTemplate.Value.Basic

  The values that a placeholder can be bound to, and their JSON form. `ofJson`
  gives every JSON scalar its own kind of value, so a `json` value made by it
  is an array or an object; a whole number is signed whenever the signed range
  holds it.
-/
import FilterTemplate.Calendar.Instant
import FilterTemplate.Json.Basic

namespace FilterTemplate

/-- A value bound to a placeholder. -/
inductive Value where
  | int (value : Int64)
  | uint (value : UInt64)
  | float (value : Binary64)
  | string (value : String)
  | boolean (value : Bool)
  | timestamp (value : Instant)
  /-- An array or an object. -/
  | json (value : Json)
  | null

namespace Value

instance : Inhabited Value := ⟨.null⟩

/-! ## Kinds -/

/-- The name of a value's kind. -/
def typeName : Value → String
  | .int _ => "int"
  | .uint _ => "uint"
  | .float _ => "float"
  | .string _ => "string"
  | .boolean _ => "boolean"
  | .timestamp _ => "timestamp"
  | .json (.array _) => "array"
  | .json _ => "object"
  | .null => "null"

/-- Everything but JSON containers. -/
def isScalar : Value → Bool
  | .json _ => false
  | _ => true

/-- The null value. -/
def isNull : Value → Bool
  | .null => true
  | _ => false

/-- Equality of values. Values of different kinds differ, and floating-point
numbers are compared as numbers. -/
def equal : Value → Value → Bool
  | .int x, .int y => x == y
  | .uint x, .uint y => x == y
  | .float x, .float y => x.equal y
  | .string x, .string y => x == y
  | .boolean x, .boolean y => x == y
  | .timestamp x, .timestamp y => x == y
  | .json x, .json y => x.equal y
  | .null, .null => true
  | _, _ => false

/-! ## JSON form -/

/-- The JSON form of a value. Timestamps become text, and floating-point
numbers that JSON does not have become null. -/
def toJson : Value → Json
  | .int v => .number (.int v.toInt ⟨v.le_toInt, Int.lt_trans v.toInt_lt (by decide)⟩)
  | .uint v =>
    .number (.int v.toNat ⟨Int.le_trans (by decide) (Int.natCast_nonneg _),
      by have := v.toNat_lt; omega⟩)
  | .float v => if h : v.isFinite = true then .number (.float v h) else .null
  | .string v => .string v
  | .boolean v => .bool v
  | .timestamp v => .string (String.ofList v.isoText)
  | .json v => v
  | .null => .null

/-- The value of a JSON form. -/
def ofJson : Json → Value
  | .null => .null
  | .bool v => .boolean v
  | .number (.int i _) =>
    if i < 9223372036854775808 then .int (Int64.ofInt i) else .uint (UInt64.ofNat i.toNat)
  | .number (.float v _) => .float v
  | .string v => .string v
  | .array items => .json (.array items)
  | .ordered members => .json (.ordered members)

/-- Only containers stay JSON. -/
theorem isScalar_ofJson (j : Json) : (ofJson j).isScalar = !j.isContainer := by
  cases j with
  | number n =>
    cases n with
    | int i h => simp only [ofJson]; split <;> rfl
    | float => rfl
  | _ => rfl

end Value

end FilterTemplate
