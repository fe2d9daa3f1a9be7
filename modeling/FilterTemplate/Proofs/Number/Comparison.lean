/-
  FilterTemplate.Proofs.Number.Comparison

  Comparing in turn. Where numbers are written in places, the first place that
  differs decides; so comparing the numbers is comparing the places in their
  order, and comparing texts of one length is comparing their parts in order.
-/
import Mathlib.Data.List.Basic

namespace FilterTemplate

/-! ## Orders -/

section

variable {α β : Type} [Ord α] [LT α] [LE α] [Std.LawfulOrderOrd α] [Std.LawfulOrderLT α]
  [Std.LawfulEqOrd α] [Ord β] [LT β] [LE β] [Std.LawfulOrderOrd β] [Std.LawfulOrderLT β]

/-- What decides first decides, and the rest counts where it does not. -/
theorem compare_eq_then {a b : α} {x y : β} {rest : Ordering} (hlt : a < b → x < y)
    (heq : a = b → compare x y = rest) (hgt : b < a → y < x) :
    compare x y = (compare a b).then rest := by
  cases h : compare a b with
  | lt => exact Std.compare_eq_lt.2 (hlt (Std.compare_eq_lt.1 h))
  | eq => exact heq (Std.LawfulEqOrd.eq_of_compare h)
  | gt => exact Std.compare_eq_gt.2 (hgt (Std.compare_eq_gt.1 h))

/-- An increasing map keeps comparisons. -/
theorem compare_congr [Std.LawfulEqOrd β] {a b : α} {x y : β} (hlt : a < b → x < y)
    (heq : a = b → x = y) (hgt : b < a → y < x) : compare x y = compare a b := by
  have hrest : a = b → compare x y = .eq := fun h => Std.compare_eq_iff_eq.2 (heq h)
  rw [compare_eq_then hlt hrest hgt, Ordering.then_eq]

end

/-! ## Numbers -/

/-- Of numbers in places of base `k`, the higher places decide first. -/
theorem compare_mul_add {k a b : Nat} (ha : a < k) (hb : b < k) (m n : Nat) :
    compare (k * m + a) (k * n + b) = (compare m n).then (compare a b) := by
  have hless : ∀ {m n a b : Nat}, a < k → m < n → k * m + a < k * n + b := by
    intro m n a b ha hmn
    calc k * m + a < k * m + k := Nat.add_lt_add_left ha _
      _ = k * (m + 1) := (Nat.mul_succ k m).symm
      _ ≤ k * n := Nat.mul_le_mul_left k hmn
      _ ≤ k * n + b := Nat.le_add_right _ _
  refine compare_eq_then (hless ha) ?_ (hless hb)
  rintro rfl
  exact compare_congr (Nat.add_lt_add_left · _) (congrArg _) (Nat.add_lt_add_left · _)

/-- The quotients by a number decide first, then the remainders. -/
theorem compare_div_mod {k : Nat} (hk : 0 < k) (m n : Nat) :
    compare m n = (compare (m / k) (n / k)).then (compare (m % k) (n % k)) := by
  rw [← compare_mul_add (Nat.mod_lt m hk) (Nat.mod_lt n hk), Nat.div_add_mod, Nat.div_add_mod]

/-! ## Lists -/

/-- Of lists that begin with lists of one length, those decide first. -/
theorem compare_append {α : Type} [Ord α] {s t : List α} (h : s.length = t.length)
    (s' t' : List α) : compare (s ++ s') (t ++ t') = (compare s t).then (compare s' t') := by
  induction s generalizing t with
  | nil =>
    rw [List.length_nil] at h
    rw [List.eq_nil_of_length_eq_zero h.symm]
    rfl
  | cons a s ih =>
    cases t with
    | nil => exact absurd h (by simp)
    | cons b t =>
      rw [List.length_cons, List.length_cons, Nat.add_right_cancel_iff] at h
      rw [List.cons_append, List.cons_append, List.compare_cons_cons, List.compare_cons_cons,
        ih h, Ordering.then_assoc]

end FilterTemplate
