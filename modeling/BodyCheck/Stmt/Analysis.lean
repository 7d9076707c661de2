import BodyCheck.Stmt.Header
import BodyCheck.Stmt.Simple

/-!
# Analysis of statements

Statements are analyzed in the order in which they are written, and every list of statements
inside another statement in a block of its own.  The first fault ends the analysis of everything
around it; what has been found by then is kept, and the statements not reached stay as they are.

## Main definitions

* `Stmt.analyze` — the analysis of a statement.
* `Stmt.analyzeList` — of a list, in the block that is open already.
-/

namespace BodyCheck.Stmt

mutual

/-- Analyzes a statement and all that is inside it. -/
def analyze : Stmt → Context → Outcome Stmt
  | simple s, ctx => ((s.analyze ctx).map simple).passing
  | breakable keyword label header body, ctx =>
    let opened := header.analyze keyword ctx
    ((opened.ctx.within (.breakable opened.kind label) (analyzeList body)).map
      (breakable keyword label opened.header)).passing
  | ifElse keyword cond onTrue onFalse, ctx =>
    let cond := cond.analyze ctx
    (((cond.ctx.within .branch (analyzeList onTrue)).andThen onFalse
      (·.within .branch (analyzeList onFalse))).map fun arms =>
        ifElse keyword cond.expr arms.1 arms.2).passing
  | guarded keyword body caught handler finalizer, ctx =>
    ((((ctx.within .guarded (analyzeList body)).andThen handler (analyzePart handler)).andThen
      finalizer (analyzePart finalizer)).map fun parts =>
        guarded keyword parts.1.1 caught parts.1.2 parts.2).passing

/-- Analyzes the statements of a list in the innermost block. -/
def analyzeList : List Stmt → Context → Outcome (List Stmt)
  | [], ctx => .done [] ctx
  | s :: rest, ctx =>
    ((s.analyze ctx).andThen rest (analyzeList rest)).map fun parts => parts.1 :: parts.2

/-- Analyzes a part of a try statement that may be absent. -/
def analyzePart : Option (List Stmt) → Context → Outcome (Option (List Stmt))
  | none, ctx => .done none ctx
  | some body, ctx => (ctx.within .guarded (analyzeList body)).map some

end

/-- A list of one statement is analyzed as the statement is. -/
theorem analyzeList_singleton (s : Stmt) (ctx : Context) :
    analyzeList [s] ctx = (s.analyze ctx).map fun s => [s] := by
  rw [analyzeList]
  obtain ⟨node, behind, _ | fault⟩ := s.analyze ctx
  · rw [Outcome.andThen, analyzeList]
    rfl
  · rfl

end BodyCheck.Stmt
