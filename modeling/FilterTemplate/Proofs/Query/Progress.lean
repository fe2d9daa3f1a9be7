/-
  FilterTemplate.Proofs.Query.Progress

  The sessions that calls go through. Carrying out a row of calls passes through
  a session after each call, and inside a group through one after its opening
  and after each of its calls. Such a session is that of a row of its own, in
  which the groups that still go on are opened by calls.
-/
import FilterTemplate.Proofs.Query.Steps

namespace FilterTemplate.Session

/-- While the calls `calls` are carried out on `s`, there is a moment at which
the session is `t` and the calls `made` have been made. Of a group that goes on
at that moment the opening is made and some of its calls. -/
inductive Reaches : (s : Session) → (calls made : List Call) → (t : Session) → Prop where
  | here {s : Session} {calls : List Call} : Reaches s calls [] s
  | next {s t : Session} {call : Call} {calls made : List Call} :
    Reaches (perform s call) calls made t → Reaches s (call :: calls) (call :: made) t
  | inside {s t : Session} {inner calls made : List Call} :
    Reaches (s.update Query.openGroup) inner made t →
      Reaches s (.group inner :: calls) (.openGroup :: made) t

variable {s t : Session} {calls made : List Call}

theorem Reaches.eq_performAll (h : Reaches s calls made t) : t = performAll s made := by
  induction h with
  | here => rfl
  | next _ ih => rw [performAll, ih]
  | inside _ ih => rw [performAll, perform, ih]

/-- The last moment is that at which all calls have been made. -/
theorem reaches_performAll (s : Session) (calls : List Call) :
    Reaches s calls calls (performAll s calls) := by
  induction calls generalizing s with
  | nil => exact .here
  | cons call calls ih => exact .next (ih (perform s call))

theorem foldl_performAll (s : Session) (chains : List (List Call)) :
    chains.foldl performAll s = performAll s chains.flatten := by
  induction chains generalizing s with
  | nil => rfl
  | cons calls chains ih => rw [List.foldl_cons, ih, List.flatten_cons, performAll_append]

/-- A moment of the last of several chains is reached by the calls of all chains
made by then. -/
theorem Reaches.eq_performAll_flatten {chains : List (List Call)}
    (h : Reaches (chains.foldl performAll s) calls made t) :
    t = performAll s (chains.flatten ++ made) := by
  rw [h.eq_performAll, foldl_performAll, performAll_append]

end FilterTemplate.Session
