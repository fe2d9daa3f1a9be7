/-
  FilterTemplate.Value.Normal

  The values that survive a turn through JSON. `normalized` is the value after
  such a turn. A value is normal when it is the one that its JSON form stands
  for: no timestamp, an unsigned number only beyond the signed range, no
  floating-point number that JSON lacks, and JSON only around a container.
  `FitsJson` asks for less: only that JSON has a form of the value's own kind.
  `HoldsContainers` asks for less in another way: only that no scalar is held as
  JSON, which is what it takes for the kind to tell the form, as in `TellsForm`.
-/
import FilterTemplate.Value.Basic

namespace FilterTemplate

/-- The value after a turn through JSON. -/
def Value.normalized (v : Value) : Value :=
  ofJson v.toJson

/-- JSON has the value: it is no timestamp, no infinity and no NaN. -/
def Value.FitsJson : Value → Prop
  | .timestamp _ => False
  | .float v => v.isFinite = true
  | _ => True

instance : DecidablePred Value.FitsJson
  | .timestamp _ => inferInstanceAs (Decidable False)
  | .float v => inferInstanceAs (Decidable (v.isFinite = true))
  | .int _ => inferInstanceAs (Decidable True)
  | .uint _ => inferInstanceAs (Decidable True)
  | .string _ => inferInstanceAs (Decidable True)
  | .boolean _ => inferInstanceAs (Decidable True)
  | .json _ => inferInstanceAs (Decidable True)
  | .null => inferInstanceAs (Decidable True)

/-- JSON is held only around an array or an object. -/
def Value.HoldsContainers : Value → Prop
  | .json j => j.isContainer = true
  | _ => True

/-- The kind of the value is told as what its JSON form is: a container or none, and which. -/
structure Value.TellsForm (v : Value) : Prop where
  isScalar_iff : v.isScalar = true ↔ v.toJson.isContainer = false
  array_iff : v.typeName = "array" ↔ ∃ items, v.toJson = .array items
  object_iff : v.typeName = "object" ↔ ∃ members, v.toJson = .ordered members

/-- The value is the one that its JSON form stands for. -/
def Value.IsNormal : Value → Prop
  | .timestamp _ => False
  | .uint v => 9223372036854775808 ≤ v.toNat
  | .float v => v.isFinite = true
  | .json j => j.isContainer = true
  | _ => True

namespace Json

mutual

/-- A floating-point number occurs in the value. -/
def hasFloat : Json → Bool
  | .number (.float _ _) => true
  | .array items => hasFloatInItems items
  | .ordered members => hasFloatInMembers members
  | _ => false

/-- A floating-point number occurs in the items. -/
def hasFloatInItems : List Json → Bool
  | [] => false
  | x :: xs => hasFloat x || hasFloatInItems xs

/-- A floating-point number occurs in the members' values. -/
def hasFloatInMembers {above : Option String} : Members above → Bool
  | .nil => false
  | .cons _ x _ xs => hasFloat x || hasFloatInMembers xs

end

end Json

end FilterTemplate
