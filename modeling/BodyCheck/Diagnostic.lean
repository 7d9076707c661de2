import BodyCheck.Block.Owner
import BodyCheck.Signature

/-!
# Diagnostics and faults

A diagnostic tells of a defect in the program under analysis.  A fault tells the maker of the
tree that the tree is one that no program has, and ends the analysis of a body.

## Main definitions

* `Problem` — what is wrong with a program, with `Problem.kind` and `Problem.message`.
* `Diagnostic` — a problem at a token.
* `Flaw` — what is wrong with a tree, with `Flaw.kind` and `Flaw.message`.
* `Fault` — a flaw at a token.

## Design notes

Problems and flaws are causes; their wording stands in one function each.  `stated` hands on
a finding that was made and worded outside of this library.
-/

namespace BodyCheck

/-- The two kinds of defects of a program. -/
inductive ProblemKind
  | semantic
  | type
deriving DecidableEq, Repr, Inhabited

/-- What may be wrong with a program. -/
inductive Problem
  | uninitialized (variableName : String)
  | undeclared (variableName : String)
  | noSuperclass (className : String)
  | unknownClass (className : String) (importAlias : Option String)
  | notDeletable
  | misplacedJump (kind : JumpKind)
  | unknownLabel (label : String)
  | overload (error : OverloadError)
  | returnMismatch (actual declared : Ty)
  | notIndexable (base : Ty)
  | notSwitchable
  | caseMismatch (subject actual : Ty)
  | voidAssertion
  | nullAssertion
  | voidLog
  | stated (kind : ProblemKind) (message : String)
deriving DecidableEq, Repr, Inhabited

namespace Problem

/-- Problems with types, as opposed to all others. -/
def kind : Problem → ProblemKind
  | overload _ | returnMismatch _ _ | notIndexable _ | notSwitchable | caseMismatch _ _
  | voidAssertion | nullAssertion | voidLog => .type
  | stated kind _ => kind
  | _ => .semantic

/-- The wording of a problem. -/
def message : Problem → String
  | uninitialized name => "variable is not initialized: " ++ name
  | undeclared name => "local variable '" ++ name ++ "' is not declared"
  | noSuperclass name => "class '" ++ name ++ "' has no super class"
  | unknownClass name none => "no class definition for '" ++ name ++ "'"
  | unknownClass name (some importAlias) =>
    "no class definition for '" ++ name ++ "' in import '" ++ importAlias ++ "'"
  | notDeletable => "only properties of a hash object can be deleted"
  | misplacedJump .breaks =>
    "cannot break (a break statement is only allowed within the following statements: "
      ++ "for/do-while/while/switch)"
  | misplacedJump .continues =>
    "cannot continue (a continue statement is only allowed within the following statements: "
      ++ "for/do-while/while)"
  | unknownLabel label =>
    "label '" ++ label ++ "' is either not defined or invalid as the destination"
  | overload .noMatch => "no function with matching arguments"
  | overload .ambiguous => "result of function resolution is ambiguous"
  | returnMismatch actual declared =>
    "cannot convert '" ++ actual.text ++ "' to return type '" ++ declared.text ++ "'"
  | notIndexable base => "cannot apply operator '[]' to type '" ++ base.text ++ "'"
  | notSwitchable => "switch statement only accepts boolean, number, or string expressions"
  | caseMismatch subject actual =>
    "type mismatch; expected type was '" ++ subject.text ++ "' but got '" ++ actual.text ++ "'"
  | voidAssertion => "cannot assert type void"
  | nullAssertion => "assertion never succeeds"
  | voidLog => "cannot log a void expression"
  | stated _ message => message

end Problem

/-- A problem and the token that shows where it is. -/
structure Diagnostic where
  problem : Problem
  token : Token
deriving DecidableEq, Repr, Inhabited

namespace Diagnostic

/-- The wording of the problem. -/
def message (diagnostic : Diagnostic) : String :=
  diagnostic.problem.message

/-- The diagnostic as one line of text. -/
def text (diagnostic : Diagnostic) : String :=
  "[" ++ diagnostic.token.location ++ "] " ++ diagnostic.message

end Diagnostic

/-- The two kinds of flaws of a tree. -/
inductive FlawKind
  /-- A statement stands where it cannot stand. -/
  | logic
  /-- A statement lacks a part it cannot be without. -/
  | malformed
deriving DecidableEq, Repr, Inhabited

/-- What may be wrong with a tree. -/
inductive Flaw
  | caseOutsideSwitch
  | emptyAssertion
  | stated (kind : FlawKind) (message : String)
deriving DecidableEq, Repr, Inhabited

namespace Flaw

/-- The kind of a flaw. -/
def kind : Flaw → FlawKind
  | caseOutsideSwitch => .logic
  | emptyAssertion => .malformed
  | stated kind _ => kind

/-- The wording of a flaw. -/
def message : Flaw → String
  | caseOutsideSwitch => "case statement outside of a switch body"
  | emptyAssertion => "assert statement without an expression"
  | stated _ message => message

end Flaw

/-- A flaw and the token that shows where it is. -/
structure Fault where
  flaw : Flaw
  token : Token
deriving DecidableEq, Repr, Inhabited

namespace Fault

/-- The wording of the flaw. -/
def message (fault : Fault) : String :=
  fault.flaw.message

/-- The fault as one line of text. -/
def text (fault : Fault) : String :=
  (match fault.flaw.kind with
    | .logic => "logic flaw at "
    | .malformed => "malformed statement tree at ")
    ++ fault.token.location ++ ": " ++ fault.message

end Fault

end BodyCheck
