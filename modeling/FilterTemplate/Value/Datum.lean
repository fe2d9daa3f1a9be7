/-
  FilterTemplate.Value.Datum

  The data that a caller hands over to be bound, and the value each becomes.
  Whole numbers of every width widen to sixty-four bits, a date stands for its
  first instant, a missing datum is null, and a list is a JSON array.
-/
import FilterTemplate.Number.Rounding
import FilterTemplate.Value.Basic

namespace FilterTemplate

/-- A datum that can be bound to a placeholder. -/
inductive Datum where
  | signed (value : Int64)
  | unsigned (value : UInt64)
  | single (value : Binary32)
  | double (value : Binary64)
  | boolean (value : Bool)
  | string (value : String)
  | instant (value : Instant)
  | date (value : Date)
  | missing
  | present (datum : Datum)
  | list (items : List Datum)
  | json (value : Json)
  /-- A value as it is. -/
  | value (value : Value)

namespace Datum

mutual

/-- The value of a datum. -/
def toValue : Datum → Value
  | .signed v => .int v
  | .unsigned v => .uint v
  | .single v => .float v.widen
  | .double v => .float v
  | .boolean v => .boolean v
  | .string v => .string v
  | .instant v => .timestamp v
  | .date v => .timestamp (.ofDate v)
  | .missing => .null
  | .present d => toValue d
  | .list ds => .json (.array (toJsonItems ds))
  | .json v => .ofJson v
  | .value v => v

/-- The JSON forms of the items of a list. -/
def toJsonItems : List Datum → List Json
  | [] => []
  | d :: ds => (toValue d).toJson :: toJsonItems ds

end

/-- The value that is handed over as it is, if the datum is one. -/
def asItIs? : Datum → Option Value
  | .value v => some v
  | .present d => asItIs? d
  | _ => none

end Datum

end FilterTemplate
