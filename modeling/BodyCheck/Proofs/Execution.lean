import BodyCheck.Stmt.Basic

/-!
# Runs of a body

What a function body does with its locals when it runs.  Nothing is said about values: a
condition may come out either way, a loop may go on or not, and any expression may throw at any
point.  What counts is the order in which locals are read and assigned, and how control moves.

## Main definitions

* `Access` — a read or an assignment of a local, as a run makes it.
* `Ending` — how a run of a part of a body ends.
* `Behavior` — the runs of a part of a body, with one combinator for each way of putting parts
  together: `Behavior.andThen`, `.either`, `.rounds`, `.once`, `.handledBy`, `.finallyRun`.
* `Expr.accesses` — what evaluating an expression does, operands first and from left to right.
* `Stmt.runs`, `Stmt.runsOfList` — the runs of a statement and of a list.

## Design notes

A run that does not end has no ending, but all that it does is done by one of its beginnings.  So
a run may be cut anywhere: with `Ending.cut` we stop following it, and what holds of the path of
every run, cut runs included, holds at every point of a run that goes on for ever.

The loop variable of a for-in loop and the variable of a catch do not appear on a path.  Both are
given values when control enters the list behind them; leaving this out only makes it harder for
a read to be preceded by an assignment.

Conditions may come out either way, and a for loop without a condition may be left at its test like
any other.  This only adds runs.

Runs of a compound statement are put together from the runs of its lists, so that `Stmt.runs` is
a recursion on the statement, and only the rounds of a loop need an inductive definition.
-/

namespace BodyCheck

/-- What a run does with a local variable. -/
inductive Access
  | reads (name : String)
  | assigns (name : String)
deriving DecidableEq, Repr

/-- How a run of a part of a body ends. -/
inductive Ending
  /-- Control goes on behind the part. -/
  | normal
  /-- A break or continue that has not yet come to the statement it aims at. -/
  | jumped (kind : JumpKind) (aim : Option String)
  | returned
  | thrown
  /-- The run is followed no further. -/
  | cut
deriving DecidableEq, Repr

namespace Ending

/-- Whether a jump aims at a statement with the given label.  A jump without a label aims at the
innermost statement that it may leave. -/
def isAimedAt (aim : Option String) (label : Option Token) : Bool :=
  aim.all fun name => label.any (·.value == name)

/-- Whether a loop goes on after a round of its body that ends so. -/
def goesOn (label : Option Token) : Ending → Bool
  | normal => true
  | jumped .continues aim => isAimedAt aim label
  | _ => false

/-- How a loop or switch ends that is left because its body ends so. -/
def leaving (label : Option Token) : Ending → Ending
  | jumped .breaks aim => if isAimedAt aim label then normal else jumped .breaks aim
  | ending => ending

end Ending

/-- The runs of a part of a body: what each does with the locals, in order, and how it ends. -/
abbrev Behavior := List Access → Ending → Prop

namespace Behavior

/-- Does nothing and ends in the given way. -/
def stops (ending : Ending) : Behavior := fun path actual =>
  path = [] ∧ (actual = ending ∨ actual = .cut)

/-- Makes the given accesses one after the other, and may throw before, between and behind them. -/
def straight (accesses : List Access) : Behavior := fun path ending =>
  (path = accesses ∧ ending = .normal) ∨
    (path <+: accesses ∧ (ending = .thrown ∨ ending = .cut))

/-- Goes on with a second part when control comes to the end of the first. -/
def andThen (first second : Behavior) : Behavior := fun path ending =>
  (∃ before after, first before .normal ∧ second after ending ∧ path = before ++ after) ∨
    (first path ending ∧ ending ≠ .normal)

/-- Goes one of two ways. -/
def either (a b : Behavior) : Behavior := fun path ending =>
  a path ending ∨ b path ending

/-- What is left of a loop or switch with this label when control leaves its body. -/
def leaving (label : Option Token) (body : Behavior) : Behavior := fun path ending =>
  ∃ inner, body path inner ∧ ending = inner.leaving label

/-- One round of the body of a loop, behind which the loop goes on or is left. -/
def once (label : Option Token) (body following : Behavior) : Behavior := fun path ending =>
  (∃ before inner after, body before inner ∧ inner.goesOn label = true ∧ following after ending ∧
    path = before ++ after) ∨
    (∃ inner, body path inner ∧ inner.goesOn label = false ∧ ending = inner.leaving label)

/-- The rounds of a loop from a test of its condition on.  Each round is a test, the body, and a
step that leads to the next test. -/
inductive rounds (label : Option Token) (test body step : Behavior) : Behavior
  /-- The test comes out against another round, or does not come to its end. -/
  | tested {path ending} (htest : test path ending) : rounds label test body step path ending
  /-- The body leaves the loop. -/
  | left {p q inner} (htest : test p .normal) (hbody : body q inner)
      (hleave : inner.goesOn label = false) :
      rounds label test body step (p ++ q) (inner.leaving label)
  /-- The step does not come to its end. -/
  | stuck {p q r inner ending} (htest : test p .normal) (hbody : body q inner)
      (hgo : inner.goesOn label = true) (hstep : step r ending) (habrupt : ending ≠ .normal) :
      rounds label test body step (p ++ q ++ r) ending
  | again {p q r t inner ending} (htest : test p .normal) (hbody : body q inner)
      (hgo : inner.goesOn label = true) (hstep : step r .normal)
      (hrest : rounds label test body step t ending) :
      rounds label test body step (p ++ q ++ r ++ t) ending

/-- Hands what is thrown over to a handler, if there is one. -/
def handledBy (body : Behavior) : Option Behavior → Behavior
  | none => body
  | some handler => fun path ending =>
    (body path ending ∧ ending ≠ .thrown) ∨
      ∃ before after, body before .thrown ∧ handler after ending ∧ path = before ++ after

/-- Runs a finalizer, if there is one, whichever way control leaves; unless the finalizer itself
comes to an abrupt end, control then goes where it was going. -/
def finallyRun (body : Behavior) : Option Behavior → Behavior
  | none => body
  | some finalizer => fun path ending =>
    (body path .cut ∧ ending = .cut) ∨
      ∃ before inner after last, body before inner ∧ inner ≠ .cut ∧ finalizer after last ∧
        path = before ++ after ∧ ending = if last = .normal then inner else last

end Behavior

open Behavior

/-! ## Expressions -/

namespace Expr

/-- What evaluating an expression does with the locals: operands first and from left to right, and
an assignment once its value is there. -/
def accesses : Expr → List Access
  | value .. => []
  | read token _ _ => [.reads token.value]
  | assign token source _ => source.accesses ++ [.assigns token.value]
  | index _ base key _ => base.accesses ++ key.accesses

/-- The runs of an expression that may be absent. -/
def runsOptional : Option Expr → Behavior
  | none => stops .normal
  | some e => straight e.accesses

end Expr

/-! ## Statements -/

/-- The runs of a simple statement.  Control that comes to the head of a section of a switch from
above passes it by. -/
def Simple.runs : Simple → Behavior
  | construct _ args _ => straight (args.flatMap Expr.accesses)
  | expression e | delete _ e => straight e.accesses
  | ret _ e => (straight e.accesses).andThen (stops .returned)
  | jump kind _ label => stops (.jumped kind (label.map (·.value)))
  | caseLabel .. | defaultLabel _ => stops .normal
  | assert _ exprs | log _ exprs => straight (exprs.flatMap Expr.accesses)

/-- The runs of a loop or switch, given those of its body from the beginning, and those that enter
the body at one of its sections. -/
def Header.runs (label : Option Token) (body sections : Behavior) : Header → Behavior
  | doWhile cond => once label body (rounds label (straight cond.accesses) body (stops .normal))
  | forIn _ operand =>
    (straight operand.accesses).andThen (rounds label (stops .normal) body (stops .normal))
  | forLoop start cond step =>
    (Expr.runsOptional start).andThen
      (rounds label (Expr.runsOptional cond) body (Expr.runsOptional step))
  | whileLoop cond => rounds label (straight cond.accesses) body (stops .normal)
  | switch subject => (straight subject.accesses).andThen (leaving label sections)

namespace Stmt

mutual

/-- The runs of a statement. -/
def runs : Stmt → Behavior
  | simple s => s.runs
  | breakable _ label header body =>
    header.runs label (runsOfList body) (runsOfSections body (runsOfDefault body))
  | ifElse _ cond onTrue onFalse =>
    (straight cond.accesses).andThen (either (runsOfList onTrue) (runsOfList onFalse))
  | guarded _ body _ handler finalizer =>
    ((runsOfList body).handledBy (runsOfPart handler)).finallyRun (runsOfPart finalizer)

/-- The runs of a list. -/
def runsOfList : List Stmt → Behavior
  | [] => stops .normal
  | s :: rest => s.runs.andThen (runsOfList rest)

/-- The runs of a part of a try statement, if it is there. -/
def runsOfPart : Option (List Stmt) → Option Behavior
  | none => none
  | some body => some (runsOfList body)

/-- The runs of the body of a switch: the cases are tested in order, and control goes on behind the
first that fits; if none does, it goes the given way. -/
def runsOfSections : List Stmt → Behavior → Behavior
  | [], otherwise => otherwise
  | s :: rest, otherwise =>
    match s with
    | simple (.caseLabel _ e) =>
      (straight e.accesses).andThen (either (runsOfList rest) (runsOfSections rest otherwise))
    | _ => runsOfSections rest otherwise

/-- The runs of the body of a switch from the section for all other cases on, if it has one. -/
def runsOfDefault : List Stmt → Behavior
  | [] => stops .normal
  | s :: rest =>
    match s with
    | simple (.defaultLabel _) => runsOfList rest
    | _ => runsOfDefault rest

end

end Stmt

end BodyCheck
