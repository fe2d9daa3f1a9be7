/-
  FilterTemplate.Query.Normal

  Prepared queries that are written as JSON and read back. `normalized` is what
  is read: the template and the names stay, and every value has made a turn
  through JSON. `IsPortable` says of which queries this is so; the depth is what
  reading allows below the two objects that the values stand in.
-/
import FilterTemplate.Query.Prepared
import FilterTemplate.Value.Normal

namespace FilterTemplate

/-- The table with every value after a turn through JSON. -/
def Params.normalized (p : Params) : Params :=
  p.map Value.normalized

/-- Every value of the table is normal. -/
def Params.IsNormal (p : Params) : Prop :=
  ∀ e ∈ p.entries, e.2.IsNormal

namespace Prepared

/-- The prepared query with every value after a turn through JSON. -/
def normalized (p : Prepared) : Prepared :=
  ⟨p.template, p.values.normalized⟩

/-- The values hold no floating-point numbers and do not nest too deep. -/
structure IsPortable (p : Prepared) : Prop where
  no_float : ∀ e ∈ p.values.entries, e.2.toJson.hasFloat = false
  depth_le : ∀ e ∈ p.values.entries, e.2.toJson.depth ≤ 125

end Prepared

end FilterTemplate
