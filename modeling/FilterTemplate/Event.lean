/-
  FilterTemplate.Event

  What the library reports while it works, as messages with a level.
-/

namespace FilterTemplate

/-- How much a report matters. -/
inductive Level where
  | debug
  | warning
  deriving DecidableEq

/-- A level as a log line shows it. -/
def Level.text : Level → String
  | .debug => "DEBUG"
  | .warning => "WARN"

/-- Something worth a report. Sizes of templates and offsets in them are
numbers of bytes. -/
inductive Event where
  /-- A query was built. -/
  | built (size params : Nat)
  /-- A query was handed to a renderer. -/
  | rendering (size params : Nat)
  /-- A group was closed although none was open. -/
  | unmatchedClose (offset : Nat)
  /-- Values were read from a JSON file. -/
  | loaded (count : Nat) (name : String)
  /-- A value was set by hand. -/
  | paramSet (name typeName : String)
  deriving DecidableEq

namespace Event

/-- The level of an event. -/
def level : Event → Level
  | .unmatchedClose _ => .warning
  | _ => .debug

/-- The sizes of a query in a message. -/
def sizes (size params : Nat) : String :=
  "(" ++ toString size ++ " chars, " ++ toString params ++ " params)"

/-- The message of an event. -/
def message : Event → String
  | .built size params => "Built filter query " ++ sizes size params
  | .rendering size params => "Rendering filter query " ++ sizes size params
  | .unmatchedClose offset => "close() without an open group at offset " ++ toString offset
  | .loaded count name => "Loaded " ++ toString count ++ " params from " ++ name
  | .paramSet name typeName => "Param " ++ name ++ " set as " ++ typeName

/-- The log line of an event. -/
def line (e : Event) : String :=
  e.level.text ++ " " ++ e.message

end Event

end FilterTemplate
