/-
  FilterTemplate.Proofs.Text.Parentheses

  The parentheses that a text leaves open. `openAfter` reads a text with some
  parentheses open before it and fails at the first one that closes where none
  is open. A balanced text leaves open what was open before it, whatever that
  is, so balanced texts may be joined and put in parentheses.
-/

namespace FilterTemplate.Text

/-- The number of parentheses open after a text with `n` open before it. -/
def openAfter : (n : Nat) → List Char → Option Nat
  | n, [] => some n
  | n, c :: s =>
    if c = '(' then
      openAfter (n + 1) s
    else if c = ')' then
      if n = 0 then none else openAfter (n - 1) s
    else
      openAfter n s

/-- Reading a text changes nothing about the parentheses open before it. -/
def IsBalanced (s : List Char) : Prop :=
  ∀ n, openAfter n s = some n

theorem openAfter_append (n : Nat) (s t : List Char) :
    openAfter n (s ++ t) = (openAfter n s).bind fun m => openAfter m t := by
  induction s generalizing n with
  | nil => rfl
  | cons c s ih =>
    simp only [List.cons_append, openAfter]
    split
    · exact ih (n + 1)
    · split
      · split
        · rfl
        · exact ih (n - 1)
      · exact ih n

theorem openAfter_append_of_isBalanced {t : List Char} (h : IsBalanced t) (n : Nat)
    (s : List Char) : openAfter n (s ++ t) = openAfter n s := by
  rw [openAfter_append, funext h]
  exact Option.bind_fun_some (openAfter n s)

theorem isBalanced_of_not_mem {s : List Char} (hopen : '(' ∉ s) (hclose : ')' ∉ s) :
    IsBalanced s := by
  intro n
  induction s with
  | nil => rfl
  | cons c s ih =>
    rw [List.mem_cons, not_or] at hopen hclose
    rw [openAfter, if_neg (Ne.symm hopen.1), if_neg (Ne.symm hclose.1)]
    exact ih hopen.2 hclose.2

theorem IsBalanced.append {s t : List Char} (hs : IsBalanced s) (ht : IsBalanced t) :
    IsBalanced (s ++ t) := by
  intro n
  rw [openAfter_append_of_isBalanced ht, hs n]

theorem IsBalanced.enclosed {s : List Char} (h : IsBalanced s) :
    IsBalanced ('(' :: s ++ [')']) := by
  intro n
  have hclose : openAfter (n + 1) [')'] = some n := rfl
  rw [List.cons_append, openAfter, if_pos rfl, openAfter_append, h (n + 1)]
  exact hclose

end FilterTemplate.Text
