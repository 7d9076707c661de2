import BodyCheck.Context
import BodyCheck.Stmt.Basic

/-!
# Outcomes of analysis

The analysis of a statement gives back the statement, with what was found about it, and the
context behind it; and it either comes to its end or runs into a fault.

## Main definitions

* `Outcome` — the result of analyzing something.
* `Outcome.andThen` — goes on with what follows unless there was a fault.
* `Outcome.passing` — tells that a fault passes through a statement.
* `Context.within` — analyzes in a block of its own.
-/

namespace BodyCheck

/-- What was analyzed, the context behind it, and the fault that ended the analysis if one did. -/
structure Outcome (α : Type) where
  node : α
  ctx : Context
  fault : Option Fault
deriving Repr, Inhabited

namespace Outcome

variable {α β : Type}

/-- An analysis that came to its end. -/
def done (node : α) (ctx : Context) : Outcome α :=
  ⟨node, ctx, none⟩

/-- Puts what was analyzed into its surroundings. -/
def map (f : α → β) (outcome : Outcome α) : Outcome β :=
  ⟨f outcome.node, outcome.ctx, outcome.fault⟩

/-- Goes on with the analysis of what follows; after a fault, what follows is left as it is. -/
def andThen (outcome : Outcome α) (following : β) (analyze : Context → Outcome β) :
    Outcome (α × β) :=
  match outcome.fault with
  | some fault => ⟨(outcome.node, following), outcome.ctx, some fault⟩
  | none => (analyze outcome.ctx).map fun node => (outcome.node, node)

/-- Tells that a fault passes through the statement that was analyzed. -/
def passing (outcome : Outcome Stmt) : Outcome Stmt :=
  match outcome.fault with
  | some fault =>
    { outcome with
      ctx := outcome.ctx.tell (.faultPassed fault outcome.node.name outcome.node.token) }
  | none => outcome

end Outcome

/-- Analyzes in a block of its own, which is closed whether or not there was a fault. -/
def Context.within {α : Type} (ctx : Context) (owner : Owner) (analyze : Context → Outcome α) :
    Outcome α :=
  let inner := analyze (ctx.enter owner)
  { inner with ctx := inner.ctx.leave }

end BodyCheck
