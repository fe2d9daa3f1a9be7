/-
  FilterTemplate.Proofs.Query.Totals

  Openings and closings as a list. Their totals may go below zero; a count of
  open groups does not. Counting without going below none gives the total above
  the least total so far, and the closings that find no group open are those
  that make the total less than it ever was.
-/
import FilterTemplate.Query.Balance

namespace FilterTemplate.GroupMove

/-! ## Totals -/

theorem foldl_change (n : Int) (moves : List GroupMove) :
    moves.foldl (fun n m => n + m.change) n = n + total moves := by
  induction moves generalizing n with
  | nil => exact (Int.add_zero n).symm
  | cons m moves ih =>
    rw [total, List.foldl_cons, ih, List.foldl_cons, ih]
    omega

theorem total_cons (m : GroupMove) (moves : List GroupMove) :
    total (m :: moves) = m.change + total moves := by
  rw [total, List.foldl_cons, foldl_change]
  omega

theorem total_append (xs ys : List GroupMove) : total (xs ++ ys) = total xs + total ys := by
  rw [total, List.foldl_append, foldl_change]
  rfl

theorem totals_cons (m : GroupMove) (moves : List GroupMove) :
    totals (m :: moves) = 0 :: (totals moves).map (m.change + ·) := by
  have hrest : ∀ k, total ((m :: moves).take (k + 1)) = m.change + total (moves.take k) :=
    fun k => total_cons m (moves.take k)
  rw [totals, List.length_cons, List.range_succ_eq_map, List.map_cons, List.map_map, totals,
    List.map_map]
  exact congrArg (0 :: ·) (List.map_congr_left fun k _ => hrest k)

theorem zero_mem_totals (moves : List GroupMove) : 0 ∈ totals moves := by
  cases moves with
  | nil => exact List.mem_singleton.2 rfl
  | cons m moves => rw [totals_cons]; exact List.mem_cons_self

theorem forall_mem_totals_cons {P : Int → Prop} {m : GroupMove} {moves : List GroupMove} :
    (∀ n ∈ totals (m :: moves), P n) ↔ P 0 ∧ ∀ n ∈ totals moves, P (m.change + n) := by
  rw [totals_cons, List.forall_mem_cons, List.forall_mem_map]

/-! ## The least total -/

theorem le_foldl_min_iff {x a : Int} {ns : List Int} :
    x ≤ ns.foldl min a ↔ x ≤ a ∧ ∀ n ∈ ns, x ≤ n := by
  induction ns generalizing a with
  | nil => simp
  | cons n ns ih => rw [List.foldl_cons, ih, Int.le_min, List.forall_mem_cons, and_assoc]

theorem le_least_iff {x : Int} {moves : List GroupMove} :
    x ≤ least moves ↔ ∀ n ∈ totals moves, x ≤ n := by
  rw [least, le_foldl_min_iff]
  exact ⟨And.right, fun h => ⟨h 0 (zero_mem_totals moves), h⟩⟩

theorem least_le_zero (moves : List GroupMove) : least moves ≤ 0 :=
  le_least_iff.1 (Int.le_refl _) 0 (zero_mem_totals moves)

theorem least_cons (m : GroupMove) (moves : List GroupMove) :
    least (m :: moves) = min 0 (m.change + least moves) := by
  have hiff : ∀ x, x ≤ least (m :: moves) ↔ x ≤ min 0 (m.change + least moves) := by
    intro x
    have hshift : x ≤ m.change + least moves ↔ ∀ n ∈ totals moves, x ≤ m.change + n := by
      have hmove : x ≤ m.change + least moves ↔ x - m.change ≤ least moves := by omega
      rw [hmove, le_least_iff]
      exact forall₂_congr fun n _ => by omega
    rw [le_least_iff, forall_mem_totals_cons, Int.le_min, hshift]
  exact Int.le_antisymm ((hiff _).1 (Int.le_refl _)) ((hiff _).2 (Int.le_refl _))

/-! ## Counting without going below none -/

/-- The number of groups open after moves, `n` being open before, where closing
none leaves none. -/
def depthAfter (n : Nat) : List GroupMove → Nat
  | [] => n
  | .opened _ :: moves => depthAfter (n + 1) moves
  | .closed _ :: moves => depthAfter (n - 1) moves

/-- The places of the closings that find no group open, `n` being open before. -/
def unmatchedFrom (n : Nat) : List GroupMove → List Nat
  | [] => []
  | .opened _ :: moves => unmatchedFrom (n + 1) moves
  | .closed offset :: moves =>
    if n = 0 then offset :: unmatchedFrom 0 moves else unmatchedFrom (n - 1) moves

theorem depthAfter_append (n : Nat) (xs ys : List GroupMove) :
    depthAfter n (xs ++ ys) = depthAfter (depthAfter n xs) ys := by
  induction xs generalizing n with
  | nil => rfl
  | cons m xs ih =>
    cases m with
    | opened offset => exact ih (n + 1)
    | closed offset => exact ih (n - 1)

theorem unmatchedFrom_append (n : Nat) (xs ys : List GroupMove) :
    unmatchedFrom n (xs ++ ys) = unmatchedFrom n xs ++ unmatchedFrom (depthAfter n xs) ys := by
  induction xs generalizing n with
  | nil => rfl
  | cons m xs ih =>
    cases m with
    | opened offset => exact ih (n + 1)
    | closed offset =>
      rw [List.cons_append, unmatchedFrom, unmatchedFrom, depthAfter]
      split
      · next hn => rw [ih, hn, List.cons_append]
      · exact ih (n - 1)

/-- The places are those of moves, in their order. -/
theorem unmatchedFrom_sublist (n : Nat) (moves : List GroupMove) :
    (unmatchedFrom n moves).Sublist (moves.map offset) := by
  induction moves generalizing n with
  | nil => exact List.Sublist.refl _
  | cons m moves ih =>
    cases m with
    | opened place => exact (ih (n + 1)).cons place
    | closed place =>
      rw [unmatchedFrom]
      split
      · exact (ih 0).cons_cons place
      · exact (ih (n - 1)).cons place

theorem unmatchedFrom_closed (n offset : Nat) :
    unmatchedFrom n [.closed offset] = if n = 0 then [offset] else [] := rfl

/-- The count is the total above the least total, both from the number open before. -/
theorem depthAfter_eq (n : Nat) (moves : List GroupMove) :
    (depthAfter n moves : Int) = n + total moves - min 0 (n + least moves) := by
  induction moves generalizing n with
  | nil =>
    have htotal : total [] = 0 := rfl
    have hleast : least [] = 0 := rfl
    rw [depthAfter, htotal, hleast]
    omega
  | cons m moves ih =>
    have hle := least_le_zero moves
    rw [total_cons, least_cons]
    cases m with
    | opened offset =>
      rw [depthAfter, ih, change]
      omega
    | closed offset =>
      -- With none open, the total and its least value both go down by one.
      rw [depthAfter, ih, change]
      omega

theorem depthAfter_zero_eq (moves : List GroupMove) :
    (depthAfter 0 moves : Int) = total moves - least moves := by
  have hle := least_le_zero moves
  rw [depthAfter_eq]
  omega

/-- All closings find a group open as long as no total is negative. -/
theorem unmatchedFrom_eq_nil_iff {n : Nat} {moves : List GroupMove} :
    unmatchedFrom n moves = [] ↔ ∀ t ∈ totals moves, 0 ≤ n + t := by
  induction moves generalizing n with
  | nil =>
    have htotals : totals [] = [0] := rfl
    rw [htotals, List.forall_mem_singleton]
    exact iff_of_true rfl (by omega)
  | cons m moves ih =>
    rw [forall_mem_totals_cons]
    cases m with
    | opened offset =>
      rw [unmatchedFrom, ih, change]
      constructor
      · intro h
        refine ⟨by omega, fun t ht => ?_⟩
        have hnext := h t ht
        omega
      · rintro ⟨-, h⟩ t ht
        have hnext := h t ht
        omega
    | closed offset =>
      rw [unmatchedFrom, change]
      by_cases hn : n = 0
      · -- The closing makes the total negative, whatever follows.
        rw [if_pos hn]
        refine iff_of_false (List.cons_ne_nil _ _) ?_
        rintro ⟨-, h⟩
        have hnext := h 0 (zero_mem_totals moves)
        omega
      · rw [if_neg hn, ih]
        constructor
        · intro h
          refine ⟨by omega, fun t ht => ?_⟩
          have hnext := h t ht
          omega
        · rintro ⟨-, h⟩ t ht
          have hnext := h t ht
          omega

/-- The moves around a closing that finds no group open. -/
theorem exists_of_unmatchedFrom_eq_append {n offset : Nat} {moves : List GroupMove}
    {xs ys : List Nat} (h : unmatchedFrom n moves = xs ++ offset :: ys) :
    ∃ before after, moves = before ++ .closed offset :: after ∧ unmatchedFrom n before = xs ∧
      depthAfter n before = 0 := by
  induction moves generalizing n xs with
  | nil =>
    have hlength := congrArg List.length h
    rw [List.length_append, List.length_cons, unmatchedFrom, List.length_nil] at hlength
    omega
  | cons m moves ih =>
    cases m with
    | opened place =>
      obtain ⟨before, after, rfl, hbefore, hzero⟩ := ih h
      exact ⟨.opened place :: before, after, rfl, hbefore, hzero⟩
    | closed place =>
      rw [unmatchedFrom] at h
      by_cases hn : n = 0
      · rw [if_pos hn] at h
        cases xs with
        | nil =>
          -- It is this closing.
          obtain ⟨rfl, -⟩ := List.cons.inj h
          exact ⟨[], moves, rfl, rfl, hn⟩
        | cons x xs =>
          obtain ⟨rfl, hrest⟩ := List.cons.inj h
          obtain ⟨before, after, rfl, hbefore, hzero⟩ := ih hrest
          refine ⟨.closed place :: before, after, rfl, ?_, ?_⟩
          · rw [unmatchedFrom, if_pos hn, hbefore]
          · rw [depthAfter, hn]
            exact hzero
      · rw [if_neg hn] at h
        obtain ⟨before, after, rfl, hbefore, hzero⟩ := ih h
        refine ⟨.closed place :: before, after, rfl, ?_, hzero⟩
        rw [unmatchedFrom, if_neg hn, hbefore]

/-- The closings that find no group open are those met where the total is the
least so far. -/
theorem mem_unmatchedFrom_zero_iff {offset : Nat} {moves : List GroupMove} :
    offset ∈ unmatchedFrom 0 moves ↔
      ∃ before after, moves = before ++ .closed offset :: after ∧
        total before = least before := by
  have hdepth : ∀ before : List GroupMove,
      depthAfter 0 before = 0 ↔ total before = least before := by
    intro before
    have heq := depthAfter_zero_eq before
    omega
  constructor
  · intro h
    obtain ⟨xs, ys, hsplit⟩ := List.append_of_mem h
    obtain ⟨before, after, hmoves, -, hzero⟩ := exists_of_unmatchedFrom_eq_append hsplit
    exact ⟨before, after, hmoves, (hdepth before).1 hzero⟩
  · rintro ⟨before, after, rfl, hleast⟩
    rw [unmatchedFrom_append, (hdepth before).2 hleast, List.mem_append]
    exact .inr List.mem_cons_self

/-- The first closing that finds no group open is the one that makes the total
negative for the first time. -/
theorem head?_unmatchedFrom_zero_eq_some_iff {offset : Nat} {moves : List GroupMove} :
    (unmatchedFrom 0 moves).head? = some offset ↔
      ∃ before after, moves = before ++ .closed offset :: after ∧
        (∀ t ∈ totals before, 0 ≤ t) ∧ total (before ++ [.closed offset]) < 0 := by
  have hmatched : ∀ before : List GroupMove, unmatchedFrom 0 before = [] ↔
      ∀ t ∈ totals before, 0 ≤ t := by
    intro before
    rw [unmatchedFrom_eq_nil_iff]
    exact forall₂_congr fun t _ => by omega
  have hdepth : ∀ before : List GroupMove, (∀ t ∈ totals before, 0 ≤ t) →
      (depthAfter 0 before = 0 ↔ total (before ++ [.closed offset]) < 0) := by
    intro before hbefore
    have hleast : 0 ≤ least before := le_least_iff.2 hbefore
    have hle := least_le_zero before
    have heq := depthAfter_zero_eq before
    have hlast : total [.closed offset] = -1 := rfl
    rw [total_append, hlast]
    omega
  constructor
  · intro h
    obtain ⟨rest, hrest⟩ := List.head?_eq_some_iff.1 h
    have hsplit : unmatchedFrom 0 moves = [] ++ offset :: rest := hrest
    obtain ⟨before, after, hmoves, hnone, hzero⟩ := exists_of_unmatchedFrom_eq_append hsplit
    have hbefore := (hmatched before).1 hnone
    exact ⟨before, after, hmoves, hbefore, (hdepth before hbefore).1 hzero⟩
  · rintro ⟨before, after, rfl, hbefore, hnegative⟩
    rw [unmatchedFrom_append, (hmatched before).2 hbefore, (hdepth before hbefore).2 hnegative,
      List.nil_append, unmatchedFrom, if_pos rfl, List.head?_cons]

end FilterTemplate.GroupMove
