/-
  FilterTemplate.Query.Session

  Running calls on a query. A session is the query together with the events
  reported so far; `perform` carries out one call. `trace` tells what each call
  did: the text it wrote, or the result of a build.
-/
import FilterTemplate.Event
import FilterTemplate.Query.Call

namespace FilterTemplate

/-- A query under construction and what was reported on the way. -/
structure Session where
  query : Query
  log : List Event

/-- What a call did. -/
inductive Trace where
  /-- The call wrote a text. -/
  | wrote (text : String)
  /-- The call wrote a group. -/
  | group (inner : List Trace) (text : String)
  | built (result : Except BuildError Prepared)
  | rendered (result : Except BuildError String)

namespace Session

/-- A session on an empty query. -/
def start : Session :=
  ⟨.empty, []⟩

/-- Changes the query. -/
def update (s : Session) (f : Query → Query) : Session :=
  { s with query := f s.query }

/-- Reports an event. -/
def report (s : Session) (e : Event) : Session :=
  { s with log := s.log ++ [e] }

/-- Closes the innermost group and reports if there is none. -/
def closeGroup (s : Session) : Session :=
  if s.query.depth = 0 then
    (s.report (.unmatchedClose s.query.template.utf8ByteSize)).update Query.closeGroup
  else
    s.update Query.closeGroup

/-- Reports a build that succeeds. -/
def reportBuild (s : Session) : Session :=
  if s.query.imbalance?.isSome then s
  else s.report (.built s.query.template.utf8ByteSize s.query.values.size)

/-- Reports a rendering that succeeds. -/
def reportRendering (s : Session) : Session :=
  if s.query.imbalance?.isSome then s
  else s.report (.rendering s.query.template.utf8ByteSize s.query.values.size)

/-! ## Calls -/

mutual

/-- Carries out a call. -/
def perform (s : Session) : Call → Session
  | .compare path op value => s.update (·.compare ⟨path, op, value⟩)
  | .search paths value =>
    let paths := paths.filter (· ≠ "")
    s.update (·.compareEnclosed " || " (paths.map (⟨·, .like, value⟩)))
  | .isIn path values => s.update (·.compareEnclosed " || " (values.map (⟨path, .equal, ·⟩)))
  | .isNotIn path values =>
    s.update (·.compareEnclosed " && " (values.map (⟨path, .notEqual, ·⟩)))
  | .between path low high =>
    s.update (·.compareEnclosed " && "
      [⟨path, .greaterThanOrEqual, low⟩, ⟨path, .lessThanOrEqual, high⟩])
  | .notBetween path low high =>
    s.update (·.compareEnclosed " || " [⟨path, .lessThan, low⟩, ⟨path, .greaterThan, high⟩])
  | .isNull path => s.update (·.append (path ++ "=''"))
  | .isNotNull path => s.update (·.append (path ++ "!=''"))
  | .custom text => s.update (·.append text)
  | .openGroup => s.update Query.openGroup
  | .group calls => (performAll (s.update Query.openGroup) calls).closeGroup
  | .and => s.update (·.append " && ")
  | .or => s.update (·.append " || ")
  | .closeGroup => s.closeGroup
  | .build => s.reportBuild
  | .buildWith _ => s.reportRendering

/-- Carries out calls in a row. -/
def performAll (s : Session) : List Call → Session
  | [] => s
  | call :: calls => performAll (perform s call) calls

end

/-- The query that calls in a row make of a query. -/
def run (q : Query) (calls : List Call) : Query :=
  (performAll ⟨q, []⟩ calls).query

/-! ## Traces -/

/-- The text that `after` has at its end and `before` does not have. -/
def written (before after : Session) : String :=
  String.ofList (after.query.template.toList.drop before.query.template.length)

mutual

/-- What a call does. -/
def trace (s : Session) : Call → Trace
  | .group calls =>
    .group (traceAll (s.update Query.openGroup) calls) (written s (perform s (.group calls)))
  | .build => .built s.query.build
  | .buildWith render => .rendered (s.query.buildWith render)
  | call => .wrote (written s (perform s call))

/-- What calls in a row do. -/
def traceAll (s : Session) : List Call → List Trace
  | [] => []
  | call :: calls => trace s call :: traceAll (perform s call) calls

end

/-- Calls in two rows are carried out one row after the other. -/
theorem performAll_append (s : Session) (xs ys : List Call) :
    performAll s (xs ++ ys) = performAll (performAll s xs) ys := by
  induction xs generalizing s with
  | nil => rfl
  | cons x xs ih => simp [performAll, ih]

end Session

end FilterTemplate
