/-
  FilterTemplate.Text.Lines

  The lines of a text. A line ends at a line feed, and a carriage return
  right before the line feed belongs to the line's end. Text after the last
  line feed is a line of its own unless it is empty.
-/

namespace FilterTemplate.Text

/-- Puts a character in front of the first line, which is a new one if there is none. -/
def extendFirst (c : Char) : List (List Char) → List (List Char)
  | [] => [[c]]
  | line :: rest => (c :: line) :: rest

/-- The lines of a text, without their ends. -/
def lines : List Char → List (List Char)
  | [] => []
  | '\n' :: s => [] :: lines s
  | '\r' :: '\n' :: s => [] :: lines s
  | c :: s => extendFirst c (lines s)

/-- A text without a line feed is one line. -/
theorem lines_eq_singleton {s : List Char} (h : '\n' ∉ s) (hs : s ≠ []) : lines s = [s] := by
  induction s using lines.induct with
  | case1 => exact absurd rfl hs
  | case2 s => simp at h
  | case3 s => simp at h
  | case4 c s h1 h2 ih =>
    rw [lines.eq_4 c s h1 h2]
    simp only [List.mem_cons, not_or] at h
    cases s with
    | nil => simp [lines, extendFirst]
    | cons d r => rw [ih h.2 (by simp)]; rfl

end FilterTemplate.Text
