import BodyCheck.Context
import BodyCheck.Stmt.Basic

/-!
# Rules of statements

What is wrong with a simple statement or a header once its expressions have been analyzed.

## Main definitions

* `Rule.return?`, `Rule.delete?`, `Rule.switch?`, `Rule.case?`, `Rule.assert?`, `Rule.log?` — the
  problem with the types in a statement, if there is one.
* `Rule.jump?` and `Rule.label?` — the problem with the place of a jump and with its label.

## Design notes

A type that is not known gives no problem: whatever kept it from being known has been reported
already, or is reported elsewhere.
-/

namespace BodyCheck.Rule

/-- What a function returns has to convert to its return type. -/
def return? (declared : Ty) (actual : Option Ty) : Option Problem :=
  match actual with
  | some actual =>
    if actual.convertsTo declared then none else some (.returnMismatch actual declared)
  | none => none

/-- Only an access by key can be deleted, and its key has to be a string, which may be missing. -/
def delete? (e : Expr) : Option Problem :=
  match e.key? with
  | none => some .notDeletable
  | some key =>
    match key.ty? with
    | some ty => if ty.defined.same .string then none else some .notDeletable
    | none => none

/-- Whether a switch can tell values of the type apart. -/
def isSwitchable : Ty → Bool
  | .boolean | .int | .number | .string => true
  | _ => false

/-- The subject of a switch has to be of a type that a switch can tell apart. -/
def switch? (subject : Option Ty) : Option Problem :=
  match subject with
  | some ty => if isSwitchable ty then none else some .notSwitchable
  | none => none

/-- Whether a case of type `actual` may stand in a switch over `subject`: the types are equal,
or both are number types, or null is among the cases of strings. -/
def caseFits (subject actual : Ty) : Bool :=
  actual.same subject || (actual.isNumeric && subject.isNumeric)
    || (subject.same .string && actual.isNull)

/-- A case has to fit the subject of its switch. -/
def case? (subject actual : Option Ty) : Option Problem :=
  match subject, actual with
  | some subject, some actual =>
    if caseFits subject actual then none else some (.caseMismatch subject actual)
  | _, _ => none

/-- The last of the asserted expressions has to have a value that can be true. -/
def assert? (last : Option Ty) : Option Problem :=
  match last with
  | some .void => some .voidAssertion
  | some .null => some .nullAssertion
  | _ => none

/-- No expression that is logged may be void; nothing is said about those behind one of unknown
type. -/
def log? : List (Option Ty) → Option Problem
  | [] | none :: _ => none
  | some ty :: rest => if ty.isVoid then some .voidLog else log? rest

/-- A jump has to stand inside a statement that it may leave. -/
def jump? (kind : JumpKind) (owners : List Owner) : Option Problem :=
  if owners.any kind.mayLeave then none else some (.misplacedJump kind)

/-- Whether one of the owners carries the label. -/
def isLabelAround (label : String) (owners : List Owner) : Bool :=
  owners.any (·.isLabelled label)

/-- The label of a jump has to be that of a statement around the jump. -/
def label? (label : String) (owners : List Owner) : Option Problem :=
  if isLabelAround label owners then none else some (.unknownLabel label)

end BodyCheck.Rule
