/-
  FilterTemplate.Proofs.Value.NormalForm

  Normal values. A turn through JSON leads to a normal value and leaves a normal
  value as it is, so the values that stay are just the normal ones, and a second
  turn does nothing. What is read is normal, and what data are converted to
  holds JSON only around containers, unless a value is handed over as it is
  that does not. The kind of a value tells its JSON form in just that case.
-/
import FilterTemplate.Proofs.Query.Decoding
import FilterTemplate.Proofs.Value.Normalization
import FilterTemplate.Value.Datum
import FilterTemplate.Value.Reading

namespace FilterTemplate

/-! ## Equality -/

namespace Binary64

theorem equal_self {x : Binary64} (h : x.isFinite = true) : x.equal x = true := by
  rw [isFinite_eq, Bool.and_eq_true, Bool.not_eq_true'] at h
  simp [equal, h.1]

/-- A number that equals a finite one is finite: it has its bits or is a zero as well. -/
theorem isFinite_of_equal {x y : Binary64} (h : x.equal y = true) (hx : x.isFinite = true) :
    y.isFinite = true := by
  simp only [equal, Bool.and_eq_true, Bool.or_eq_true, beq_iff_eq] at h
  rcases h.2 with hbits | ⟨-, hzero⟩
  · have hsame : x = y := by
      obtain ⟨⟩ := x
      exact congrArg Binary64.mk hbits
    rwa [← hsame]
  · simp only [isZero, Bool.and_eq_true, beq_iff_eq] at hzero
    simp [isFinite, hzero.1]

end Binary64

namespace Json

theorem Number.equal_self (n : Number) : n.equal n = true := by
  cases n with
  | int i h => exact beq_self_eq_true i
  | float x h => exact Binary64.equal_self h

mutual

/-- By induction on the value: JSON has no number that differs from itself. -/
theorem equal_self (j : Json) : j.equal j = true := by
  match j with
  | .null => rfl
  | .bool b => exact beq_self_eq_true b
  | .number n => exact n.equal_self
  | .string s => exact beq_self_eq_true s
  | .array items => exact equalItems_self items
  | .ordered members => exact equalMembers_self members

theorem equalItems_self (items : List Json) : equalItems items items = true := by
  match items with
  | [] => rfl
  | x :: xs => rw [equalItems, equal_self x, equalItems_self xs, Bool.and_self]

theorem equalMembers_self {above : Option String} (members : Members above) :
    equalMembers members members = true := by
  match members with
  | .nil => rfl
  | .cons k x _ ms =>
    rw [equalMembers, equal_self x, equalMembers_self ms, beq_self_eq_true, Bool.and_self,
      Bool.and_self]

end

theorem isContainer_eq_of_equal {i j : Json} (h : i.equal j = true) :
    i.isContainer = j.isContainer := by
  cases i <;> cases j <;> first | rfl | exact absurd h (by simp [equal])

end Json

/-! ## Turns through JSON -/

namespace Value

theorem equal_self {v : Value} (h : v.IsNormal) : v.equal v = true := by
  cases v with
  | float x => exact Binary64.equal_self h
  | json j => exact j.equal_self
  | timestamp t => exact absurd h id
  | null => rfl
  | _ => exact beq_self_eq_true _

/-- Equality does not lead out of the normal values: values that are equal are of one kind. -/
theorem isNormal_of_equal {w v : Value} (h : w.equal v = true) (hw : w.IsNormal) : v.IsNormal := by
  cases v with
  | uint n =>
    cases w with
    | uint m =>
      have hsame : m = n := beq_iff_eq.1 h
      rwa [← hsame]
    | _ => exact absurd h Bool.false_ne_true
  | float y =>
    cases w with
    | float x => exact Binary64.isFinite_of_equal h hw
    | _ => exact absurd h Bool.false_ne_true
  | timestamp t =>
    cases w with
    | timestamp u => exact hw
    | _ => exact absurd h Bool.false_ne_true
  | json j =>
    cases w with
    | json i => exact (Json.isContainer_eq_of_equal h).symm.trans hw
    | _ => exact absurd h Bool.false_ne_true
  | _ => trivial

theorem normalized_eq_iff (v : Value) : v.normalized = v ↔ v.IsNormal :=
  ⟨fun h => h ▸ isNormal_ofJson v.toJson, normalized_of_isNormal⟩

theorem equal_normalized_iff (v : Value) : v.normalized.equal v = true ↔ v.IsNormal := by
  constructor
  · exact fun h => isNormal_of_equal h (isNormal_ofJson v.toJson)
  · intro h
    rw [normalized_of_isNormal h]
    exact equal_self h

theorem normalized_normalized (v : Value) : v.normalized.normalized = v.normalized :=
  normalized_of_isNormal (isNormal_ofJson v.toJson)

/-- What is typed is normal: a string, or what JSON stands for. -/
theorem isNormal_ofText (s : List Char) : (ofText s).IsNormal := by
  rw [ofText, ofTrimmed]
  split
  next => trivial
  next =>
    split
    next j _ => exact isNormal_ofJson j
    next => trivial

/-! ## Kinds -/

theorem HoldsContainers.of_isNormal {v : Value} (h : v.IsNormal) : v.HoldsContainers := by
  cases v with
  | json j => exact h
  | _ => trivial

theorem isContainer_toJson_of_isScalar {v : Value} (h : v.isScalar = true) :
    v.toJson.isContainer = false := by
  cases v with
  | json j => exact absurd h (by simp [isScalar])
  | float x =>
    rw [toJson]
    split <;> rfl
  | _ => rfl

/-- A value other than JSON has the name of its own kind, which is none of a container. -/
theorem tellsForm_of_isScalar {v : Value} (h : v.isScalar = true) : v.TellsForm := by
  have hform := isContainer_toJson_of_isScalar h
  have hname : v.typeName ≠ "array" ∧ v.typeName ≠ "object" := by
    cases v with
    | json j => exact absurd h (by simp [isScalar])
    | _ => exact ⟨by simp [typeName], by simp [typeName]⟩
  refine ⟨iff_of_true h hform, iff_of_false hname.1 ?_, iff_of_false hname.2 ?_⟩
  · rintro ⟨items, hj⟩
    rw [hj] at hform
    exact absurd hform (by simp [Json.isContainer])
  · rintro ⟨members, hj⟩
    rw [hj] at hform
    exact absurd hform (by simp [Json.isContainer])

/-- The kind of a value tells its JSON form just if JSON is held only around containers. -/
theorem tellsForm_iff (v : Value) : v.TellsForm ↔ v.HoldsContainers := by
  cases v with
  | json j =>
    constructor
    · intro h
      -- JSON is never a scalar, so its form has to be a container.
      have hscalar : ¬ (json j).isScalar = true := by simp [isScalar]
      have hform := mt h.isScalar_iff.2 hscalar
      rwa [Bool.not_eq_false] at hform
    · intro h
      cases j with
      | array items =>
        exact ⟨by simp [isScalar, toJson, Json.isContainer], by simp [typeName, toJson],
          by simp [typeName, toJson]⟩
      | ordered members =>
        exact ⟨by simp [isScalar, toJson, Json.isContainer], by simp [typeName, toJson],
          by simp [typeName, toJson]⟩
      | _ => exact absurd h (by simp [HoldsContainers, Json.isContainer])
  | _ => exact iff_of_true (tellsForm_of_isScalar rfl) trivial

end Value

/-! ## Data -/

namespace Datum

theorem toValue_of_asItIs? {d : Datum} {v : Value} (h : d.asItIs? = some v) : d.toValue = v := by
  induction d using asItIs?.induct with
  | case1 w => exact Option.some.inj h
  | case2 d ih => exact ih h
  | case3 d hvalue hpresent =>
    rw [asItIs?] at h
    · cases h
    · exact hvalue
    · exact hpresent

/-- By induction through the data that are present: conversions hold JSON only around containers,
and a value that is handed over holds what it held. -/
theorem holdsContainers_toValue_iff (d : Datum) :
    d.toValue.HoldsContainers ↔ ∀ v, d.asItIs? = some v → v.HoldsContainers := by
  induction d using asItIs?.induct with
  | case1 w =>
    rw [toValue, asItIs?]
    simp
  | case2 d ih =>
    rw [toValue, asItIs?]
    exact ih
  | case3 d hvalue hpresent =>
    have hnone : d.asItIs? = none := asItIs?.eq_3 d hvalue hpresent
    refine iff_of_true ?_ (by simp [hnone])
    cases d with
    | json j => exact .of_isNormal (Value.isNormal_ofJson j)
    | list ds => rfl
    | value v => exact absurd rfl (hvalue v)
    | present d => exact absurd rfl (hpresent d)
    | _ => trivial

end Datum

/-! ## Reading and conversions -/

namespace Value

/-- A turn through JSON leads from any value to a normal one and does nothing to those. Whatever
comes from JSON, from a text of it or from what is typed is normal. Conversions of data, through
lists and present data at any depth, hold JSON only around containers, unless they hand over a
value that is there already and does not. The kind of a value that holds JSON only around
containers tells its JSON form. -/
theorem ofJson_retracts_onto_isNormal :
    ((∀ j : Json, (ofJson j).toJson = j) ∧
        (∀ v : Value, ofJson v.toJson = v ↔ v.IsNormal) ∧
        (∀ v : Value, (ofJson v.toJson).equal v = true ↔ v.IsNormal) ∧
        ∀ v : Value, ofJson (ofJson v.toJson).toJson = ofJson v.toJson) ∧
      ((∀ j : Json, (ofJson j).IsNormal) ∧
        (∀ s : List Char, (ofText s).IsNormal) ∧
        (∀ (s : List Char) (p : Params), Params.ofText s = .ok p → p.IsNormal) ∧
        ∀ (s : List Char) (p : Prepared), Prepared.ofText s = .ok p → p.values.IsNormal) ∧
      ((∀ d : Datum, d.toValue.HoldsContainers ↔ ∀ v, d.asItIs? = some v → v.HoldsContainers) ∧
        ∀ (d : Datum) (v : Value), d.asItIs? = some v → d.toValue = v) ∧
      (∀ v : Value, v.IsNormal → v.HoldsContainers) ∧
      ∀ v : Value, v.HoldsContainers → v.TellsForm :=
  ⟨⟨toJson_ofJson, normalized_eq_iff, equal_normalized_iff, normalized_normalized⟩,
    ⟨isNormal_ofJson, isNormal_ofText, fun _ _ => Params.isNormal_of_ofText,
      fun _ _ => Prepared.isNormal_of_ofText⟩,
    ⟨Datum.holdsContainers_toValue_iff, fun _ _ => Datum.toValue_of_asItIs?⟩,
    fun _ => .of_isNormal, fun v => (tellsForm_iff v).2⟩

/-- The number next to the signed range is read as an unsigned one, and minus zero as a
floating-point one, and both are normal. The last number of the signed range that is handed over as
an unsigned one stays so and is not. A list of JSON scalars that are there already is an array. -/
theorem ofJson_retracts_onto_isNormal_of_mixed_kinds :
    let kinds (p : Params) := p.entries.map fun (name, v) => (name, v.typeName)
    let text := "\x7b\"a\":9223372036854775808,\"b\":-0\x7d"
    let unsigned : Datum := .present (.present (.value (.uint 9223372036854775807)))
    let items : Datum := .list [.missing, .present (.value (.json (.string "x")))]
    (∃ p, Params.ofText text.toList = .ok p ∧ kinds p = [("a", "uint"), ("b", "float")] ∧
        p.IsNormal) ∧
      (∃ p, Prepared.ofText ("[\"x\"," ++ text ++ "]").toList = .ok p ∧
        kinds p.values = [("a", "uint"), ("b", "float")] ∧ p.values.IsNormal) ∧
      (unsigned.toValue = .uint 9223372036854775807 ∧ unsigned.toValue.TellsForm ∧
        ofJson unsigned.toValue.toJson ≠ unsigned.toValue) ∧
      items.toValue = .json (.array [.null, .string "x"]) ∧ items.toValue.TellsForm := by
  intro kinds text unsigned items
  have hread {α β : Type} {x : Except Json.ReadError α} {f : α → β} {b : β}
      (h : x.toOption.map f = some b) : ∃ a, x = .ok a ∧ f a = b := by
    cases x with
    | error e => cases h
    | ok a => exact ⟨a, rfl, Option.some.inj h⟩
  obtain ⟨⟨-, hnormal, -, -⟩, ⟨-, -, htable, hquery⟩, ⟨hholds, hhanded⟩, -, htells⟩ :=
    ofJson_retracts_onto_isNormal
  have hparams : (Params.ofText text.toList).toOption.map kinds =
      some [("a", "uint"), ("b", "float")] := by decide +kernel
  have hprepared : (Prepared.ofText ("[\"x\"," ++ text ++ "]").toList).toOption.map
      (fun p => kinds p.values) = some [("a", "uint"), ("b", "float")] := by decide +kernel
  obtain ⟨p, hp, hkinds⟩ := hread hparams
  obtain ⟨q, hq, hkinds'⟩ := hread hprepared
  have hunsigned : unsigned.toValue = .uint 9223372036854775807 := hhanded unsigned _ rfl
  have hitems : items.toValue.HoldsContainers := (hholds items).2 (by simp [items, Datum.asItIs?])
  refine ⟨⟨p, hp, hkinds, htable _ p hp⟩, ⟨q, hq, hkinds', hquery _ q hq⟩,
    ⟨hunsigned, ?_, ?_⟩, rfl, htells _ hitems⟩
  · rw [hunsigned]
    exact htells _ trivial
  · rw [hunsigned, Ne, hnormal]
    show ¬ 9223372036854775808 ≤ (9223372036854775807 : UInt64).toNat
    decide +kernel

end Value

/-- A JSON string that is a value already is handed over as it is when it is present, so the value
holds JSON around a scalar. -/
theorem Datum.not_holdsContainers_toValue_of_json_string :
    let d : Datum := .present (.value (.json (.string "x")))
    ¬ d.toValue.HoldsContainers ∧ d.toValue.toJson.isContainer = false ∧
      d.toValue.isScalar = false ∧ d.toValue.typeName = "object" ∧ ¬ d.toValue.TellsForm := by
  intro d
  have hholds : ¬ d.toValue.HoldsContainers := by
    simp [d, toValue, Value.HoldsContainers, Json.isContainer]
  exact ⟨hholds, rfl, rfl, rfl, fun h => hholds ((Value.tellsForm_iff _).1 h)⟩

end FilterTemplate
