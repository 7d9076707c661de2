import BodyCheck.Stmt.Analysis

/-!
# Stepwise use of a context

A tool that does not analyze whole bodies works on a context step by step: it opens blocks,
declares and assigns locals, and analyzes statements and expressions that it keeps under names.

## Main definitions

* `Action` — a step; a block holds the steps that are taken inside it.
* `Session` — a context with the statements and expressions in use.
* `Session.run` — takes steps in order, and records what comes of them.

## Design notes

Blocks nest because actions do, so a session closes exactly the blocks it opens.  A fault is
recorded like any other result and stops nothing.  What analysis finds about a statement or an
expression stays with it from step to step.
-/

namespace BodyCheck

/-- A step in the use of a context. -/
inductive Action
  /-- Opens a block, takes steps inside it, and closes it. -/
  | block (owner : Owner) (actions : List Action)
  /-- Analyzes the statement kept under a name. -/
  | analyzeStmt (id : String)
  /-- Analyzes the expression kept under a name. -/
  | analyzeExpr (id : String)
  | declare (name : String) (status : Status)
  | assign (name : String)
  | setFunction (function : FunctionDef)
  | setClasses (classes : Registry)
  /-- Asks for the owners of the open blocks. -/
  | askOwners
deriving Repr, Inhabited

/-- What comes of a step. -/
inductive Happening
  | entered
  | left
  | stmtAnalyzed (stmt : Stmt) (fault : Option Fault)
  | exprAnalyzed (expr : Expr) (ok : Bool)
  | declared
  /-- Only a declared variable can be assigned. -/
  | assigned (ok : Bool)
  | functionSet (function : FunctionDef)
  | classesSet
  | owners (owners : List Owner)
deriving Repr, Inhabited

/-- What came of a step, the context behind it, and the diagnostics it added. -/
structure Record where
  happening : Happening
  ctx : Context
  found : List Diagnostic
deriving Repr, Inhabited

/-- A context with the statements and expressions that are used with it, by name. -/
structure Session where
  ctx : Context
  stmts : List (String × Stmt)
  exprs : List (String × Expr)
deriving Repr, Inhabited

namespace Session

/-- Puts a new value in the place of the one kept under a name. -/
def replace {α : Type} (entries : List (String × α)) (id : String) (value : α) :
    List (String × α) :=
  entries.map fun entry => if entry.1 = id then (id, value) else entry

/-- The record of a step that led from one session to another. -/
def record (before after : Session) (happening : Happening) : Record :=
  ⟨happening, after.ctx, after.ctx.diagnostics.drop before.ctx.diagnostics.length⟩

/-- A step that is a single happening. -/
def single (before after : Session) (happening : Happening) : Session × List Record :=
  (after, [before.record after happening])

mutual

/-- Takes a step.  There is nothing to record about a name that nothing is kept under. -/
def step : Action → Session → Session × List Record
  | .block owner actions, session =>
    let entered := { session with ctx := session.ctx.enter owner }
    let inside := run actions entered
    let after := { inside.1 with ctx := inside.1.ctx.leave }
    (after, session.record entered .entered :: inside.2 ++ [inside.1.record after .left])
  | .analyzeStmt id, session =>
    match session.stmts.lookup id with
    | none => (session, [])
    | some stmt =>
      let outcome := stmt.analyze session.ctx
      session.single
        { session with ctx := outcome.ctx, stmts := replace session.stmts id outcome.node }
        (.stmtAnalyzed outcome.node outcome.fault)
  | .analyzeExpr id, session =>
    match session.exprs.lookup id with
    | none => (session, [])
    | some expr =>
      let checked := expr.analyze session.ctx
      session.single
        { session with ctx := checked.ctx, exprs := replace session.exprs id checked.expr }
        (.exprAnalyzed checked.expr checked.ok)
  | .declare name status, session =>
    session.single
      { session with ctx := session.ctx.setLocals (session.ctx.locals.declare name status) }
      .declared
  | .assign name, session =>
    match session.ctx.locals.assign? name with
    | some locals =>
      session.single { session with ctx := session.ctx.setLocals locals } (.assigned true)
    | none => session.single session (.assigned false)
  | .setFunction function, session =>
    session.single { session with ctx := { session.ctx with function } } (.functionSet function)
  | .setClasses classes, session =>
    session.single { session with ctx := { session.ctx with classes } } .classesSet
  | .askOwners, session => session.single session (.owners session.ctx.stack.owners)

/-- Takes steps in order. -/
def run : List Action → Session → Session × List Record
  | [], session => (session, [])
  | action :: rest, session =>
    let first := step action session
    let others := run rest first.1
    (others.1, first.2 ++ others.2)

end

end Session

end BodyCheck
