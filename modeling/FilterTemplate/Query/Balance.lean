/-
  FilterTemplate.Query.Balance

  The openings and closings of groups in a run, each with the place in the
  template where it was written, and the running count of groups open that
  they make.
-/
import FilterTemplate.Query.Session

namespace FilterTemplate

/-- The opening or the closing of a group, with its place in bytes. -/
inductive GroupMove where
  | opened (offset : Nat)
  | closed (offset : Nat)
  deriving DecidableEq

namespace GroupMove

/-- How a move changes the number of open groups. -/
def change : GroupMove → Int
  | .opened _ => 1
  | .closed _ => -1

/-- Where the parenthesis of a move was written. -/
def offset : GroupMove → Nat
  | .opened offset => offset
  | .closed offset => offset

/-- The number of groups opened more than closed. -/
def total (moves : List GroupMove) : Int :=
  moves.foldl (fun n m => n + m.change) 0

/-- The totals after each move, and before all of them. -/
def totals (moves : List GroupMove) : List Int :=
  (List.range (moves.length + 1)).map fun k => total (moves.take k)

/-- The least total at any time. -/
def least (moves : List GroupMove) : Int :=
  (totals moves).foldl min 0

end GroupMove

namespace Session

mutual

/-- The openings and closings of a call. -/
def moves (s : Session) : Call → List GroupMove
  | .openGroup => [.opened s.query.template.utf8ByteSize]
  | .closeGroup => [.closed s.query.template.utf8ByteSize]
  | .group calls =>
    let opened := s.update Query.openGroup
    .opened s.query.template.utf8ByteSize :: movesOfAll opened calls ++
      [.closed (performAll opened calls).query.template.utf8ByteSize]
  | _ => []

/-- The openings and closings of calls in a row. -/
def movesOfAll (s : Session) : List Call → List GroupMove
  | [] => []
  | call :: calls => moves s call ++ movesOfAll (perform s call) calls

end

end Session

end FilterTemplate
