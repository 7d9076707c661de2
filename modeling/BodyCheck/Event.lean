import BodyCheck.Diagnostic
import BodyCheck.Form

/-!
# Events

What an analysis does is told as a sequence of events, for whoever wants to follow it.  Events
never influence the analysis.

## Main definitions

* `Level` — how important an event is.
* `Event` — something that happened, with `Event.level`, `Event.message` and `Event.fields`.
* `Event.upTo` — the events that are at least as important as a given level.
-/

namespace BodyCheck

/-- How important an event is, from the most to the least. -/
inductive Level
  | error
  | warn
  | info
  | debug
  | trace
deriving DecidableEq, Repr, Inhabited

namespace Level

/-- The place of a level in the order of importance; errors come first. -/
def rank : Level → Nat
  | error => 0
  | warn => 1
  | info => 2
  | debug => 3
  | trace => 4

/-- The name of a level. -/
def name : Level → String
  | error => "error"
  | warn => "warn"
  | info => "info"
  | debug => "debug"
  | trace => "trace"

/-- The level of a given name. -/
def ofName? (name : String) : Option Level :=
  [error, warn, info, debug, trace].find? (·.name == name)

end Level

/-- The value of a field of an event. -/
inductive FieldValue
  | text (s : String)
  | count (n : Nat)
  | flag (b : Bool)
deriving DecidableEq, Repr, Inhabited

/-- Something that happens in the course of an analysis. -/
inductive Event
  /-- A fault passes through a statement, given by its name and token. -/
  | faultPassed (fault : Fault) (statement : String) (token : Token)
  /-- The analysis of a function body begins. -/
  | bodyBegun (functionName className : String) (statements : Nat)
  /-- The analysis of a function body has come to its end. -/
  | bodyEnded (functionName : String) (diagnostics : Nat)
  /-- The form of a body, after its analysis. -/
  | bodyShown (functionName : String) (tree : Form)
  /-- A block has been entered; `depth` counts it. -/
  | blockEntered (depth : Nat)
  /-- A block has been left; `depth` no longer counts it. -/
  | blockLeft (depth : Nat)
  /-- The label of a jump has been looked up. -/
  | labelResolved (label : String) (found : Bool)
deriving Repr, Inhabited

namespace Event

/-- How important the event is. -/
def level : Event → Level
  | faultPassed .. => .error
  | bodyBegun .. | bodyEnded .. => .info
  | bodyShown .. => .debug
  | blockEntered _ | blockLeft _ | labelResolved .. => .trace

/-- What the event tells, apart from its fields. -/
def message : Event → String
  | faultPassed .. => "fatal error while compiling statement"
  | bodyBegun .. => "analyzing function body"
  | bodyEnded .. => "finished function body"
  | bodyShown .. => "analyzed body"
  | blockEntered _ => "push block"
  | blockLeft _ => "pop block"
  | labelResolved .. => "resolve jump label"

/-- The particulars of the event, by name. -/
def fields : Event → List (String × FieldValue)
  | faultPassed fault statement token =>
    [("file", .text token.fileName), ("line", .count token.line), ("statement", .text statement),
      ("fault", .text fault.text)]
  | bodyBegun functionName className statements =>
    [("function", .text functionName), ("class", .text className),
      ("statements", .count statements)]
  | bodyEnded functionName diagnostics =>
    [("function", .text functionName), ("errors", .count diagnostics)]
  | bodyShown functionName tree =>
    [("function", .text functionName), ("tree", .text tree.write)]
  | blockEntered depth => [("depth", .count depth)]
  | blockLeft depth => [("depth", .count depth)]
  | labelResolved label found => [("label", .text label), ("found", .flag found)]

/-- The events that are at least as important as the given level, in order. -/
def upTo (threshold : Level) (events : List Event) : List Event :=
  events.filter fun event => event.level.rank ≤ threshold.rank

end Event

end BodyCheck
