/-
  FilterTemplate.Text.Blank

  White space and trimming. The blank characters are those of Unicode's
  White_Space property; `trim` removes them from both ends of a text and
  leaves every other character alone.
-/

namespace FilterTemplate.Text

/-! ## The class -/

/-- The twenty-five characters of Unicode's White_Space property. -/
def isBlank (c : Char) : Bool :=
  let n := c.toNat
  (0x09 ≤ n && n ≤ 0x0D) || n == 0x20 || n == 0x85 || n == 0xA0 || n == 0x1680 ||
    (0x2000 ≤ n && n ≤ 0x200A) || n == 0x2028 || n == 0x2029 || n == 0x202F ||
    n == 0x205F || n == 0x3000

/-! ## Trimming -/

/-- The text without the blank characters it starts with. -/
def trimStart (s : List Char) : List Char :=
  s.dropWhile isBlank

/-- The text without the blank characters it ends with. -/
def trimEnd (s : List Char) : List Char :=
  (s.reverse.dropWhile isBlank).reverse

/-- The text without the blank characters at either end. -/
def trim (s : List Char) : List Char :=
  trimEnd (trimStart s)

/-- A text of blank characters only trims to nothing. -/
theorem trimStart_eq_nil_of_all {s : List Char} (h : ∀ c ∈ s, isBlank c = true) :
    trimStart s = [] := by
  induction s with
  | nil => rfl
  | cons c s ih =>
    simp only [List.mem_cons, forall_eq_or_imp] at h
    rw [trimStart, List.dropWhile_cons_of_pos h.1]
    exact ih h.2

/-- A text that starts with a character that is not blank keeps its start. -/
theorem trimStart_cons_of_not_blank {c : Char} {s : List Char} (h : isBlank c = false) :
    trimStart (c :: s) = c :: s := by
  simp [trimStart, h]

/-- A blank character at the start goes. -/
theorem trimStart_cons_of_blank {c : Char} {s : List Char} (h : isBlank c = true) :
    trimStart (c :: s) = trimStart s := by
  simp [trimStart, h]

end FilterTemplate.Text
