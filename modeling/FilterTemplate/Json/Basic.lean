/-
  FilterTemplate.Json.Basic

  JSON values. A number is a whole number of the sixty-four-bit ranges, signed
  or not, or a finite binary64 number; the two kinds stay apart. An object has
  its members by strictly ascending key: each member of `Members` comes with the
  proof that its key is above the one before, so no object has a key twice or
  out of order. `object` makes one of members in any order.
-/
import FilterTemplate.Number.Binary64

namespace FilterTemplate

/-- A JSON number. -/
inductive Json.Number where
  /-- A number written without a point and without an exponent. -/
  | int (value : Int) (inRange : -9223372036854775808 ≤ value ∧ value < 18446744073709551616)
  /-- Any other number. -/
  | float (value : Binary64) (finite : value.isFinite = true)
  deriving DecidableEq

mutual

/-- A JSON value. -/
inductive Json where
  | null
  | bool (value : Bool)
  | number (value : Json.Number)
  | string (value : String)
  | array (items : List Json)
  /-- An object. -/
  | ordered (members : Json.Members none)

/-- Members by strictly ascending key, with every key above the given one if there is one. -/
inductive Json.Members : (above : Option String) → Type where
  | nil {above : Option String} : Json.Members above
  | cons {above : Option String} (key : String) (value : Json) (above_lt : ∀ k ∈ above, k < key)
    (rest : Json.Members (some key)) : Json.Members above

end

namespace Json

instance : Inhabited Json := ⟨.null⟩

/-! ## Members -/

namespace Members

variable {above : Option String}

/-- The members in order. -/
def entries {above : Option String} : Members above → List (String × Json)
  | nil => []
  | cons key value _ rest => (key, value) :: rest.entries

/-- Sets a member, at its place by ascending key; one with the same key is replaced. -/
def setAbove {above : Option String} (key : String) (value : Json) (h : ∀ k ∈ above, k < key) :
    Members above → Members above
  | nil => cons key value h nil
  | cons k v hk rest =>
    if hlt : key < k then
      cons key value h (cons k v (fun _ hmem => Option.some.inj hmem ▸ hlt) rest)
    else if heq : key = k then cons k value hk rest
    else
      -- The key is above this one, which is all that the rest asks of it.
      have hgt : k < key := Std.lt_of_le_of_ne (Std.not_lt.1 hlt) (Ne.symm heq)
      cons k v hk (rest.setAbove key value fun _ hmem => Option.some.inj hmem ▸ hgt)

/-- Sets a member of an object. -/
def set (members : Members none) (key : String) (value : Json) : Members none :=
  members.setAbove key value nofun

/-- The members that setting those of a list one after the other makes. -/
def ofList (members : List (String × Json)) : Members none :=
  members.foldl (fun before m => before.set m.1 m.2) nil

end Members

/-- The object of members: of several with one key the last counts. -/
def object (members : List (String × Json)) : Json :=
  .ordered (.ofList members)

/-- The value of a member. -/
def member? (key : String) : Json → Option Json
  | .ordered members => members.entries.lookup key
  | _ => none

/-! ## Comparison -/

/-- Numbers of one kind are compared by value, and numbers of two kinds differ. -/
def Number.equal : Number → Number → Bool
  | .int x _, .int y _ => x == y
  | .float x _, .float y _ => x.equal y
  | _, _ => false

mutual

/-- Equality of values: objects have to agree in every member. -/
def equal : Json → Json → Bool
  | .null, .null => true
  | .bool x, .bool y => x == y
  | .number x, .number y => x.equal y
  | .string x, .string y => x == y
  | .array xs, .array ys => equalItems xs ys
  | .ordered xs, .ordered ys => equalMembers xs ys
  | _, _ => false

/-- Equality item by item. -/
def equalItems : List Json → List Json → Bool
  | [], [] => true
  | x :: xs, y :: ys => equal x y && equalItems xs ys
  | _, _ => false

/-- Equality member by member. -/
def equalMembers {above above' : Option String} : Members above → Members above' → Bool
  | .nil, .nil => true
  | .cons j x _ xs, .cons k y _ ys => j == k && equal x y && equalMembers xs ys
  | _, _ => false

end

/-! ## Shape -/

/-- Arrays and objects. -/
def isContainer : Json → Bool
  | .array _ => true
  | .ordered _ => true
  | _ => false

mutual

/-- How many containers are nested around the innermost value. -/
def depth : Json → Nat
  | .array items => depthOfItems items + 1
  | .ordered members => depthOfMembers members + 1
  | _ => 0

/-- The greatest depth of the items. -/
def depthOfItems : List Json → Nat
  | [] => 0
  | x :: xs => max (depth x) (depthOfItems xs)

/-- The greatest depth of the members' values. -/
def depthOfMembers {above : Option String} : Members above → Nat
  | .nil => 0
  | .cons _ x _ xs => max (depth x) (depthOfMembers xs)

end

end Json

end FilterTemplate
