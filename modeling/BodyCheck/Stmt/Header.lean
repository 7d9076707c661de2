import BodyCheck.Expr.Analysis
import BodyCheck.Stmt.Rule

/-!
# Analysis of headers

The expressions of a loop or switch that are not in its body are analyzed before the body, in
the block around it.  This holds for the condition of a do-while loop as well, and for the step
of a for loop, although they come after the body when the loop runs.

## Main definitions

* `Header.Opened` — a header after its analysis, with the kind of statement its body belongs to.
* `Header.analyze` — the analysis of a header.
-/

namespace BodyCheck.Header

/-- A header after its analysis. -/
structure Opened where
  header : Header
  /-- What the body belongs to. -/
  kind : Breakable
  ctx : Context
deriving Repr, Inhabited

/-- Analyzes a header; only a switch has a rule of its own, which is reported at the keyword. -/
def analyze (keyword : Token) : Header → Context → Opened
  | doWhile cond, ctx =>
    let cond := cond.analyze ctx
    ⟨doWhile cond.expr, .doWhile, cond.ctx⟩
  | forIn loopVariable operand, ctx =>
    let operand := operand.analyze ctx
    ⟨forIn loopVariable operand.expr, .forIn, operand.ctx⟩
  | forLoop start cond step, ctx =>
    let start := Expr.analyzeOptional start ctx
    let cond := Expr.analyzeOptional cond start.2
    let step := Expr.analyzeOptional step cond.2
    ⟨forLoop start.1 cond.1 step.1, .forLoop, step.2⟩
  | whileLoop cond, ctx =>
    let cond := cond.analyze ctx
    ⟨whileLoop cond.expr, .whileLoop, cond.ctx⟩
  | switch subject, ctx =>
    let subject := subject.analyze ctx
    let ty := if subject.ok then subject.expr.ty? else none
    ⟨switch subject.expr, .switch ty, subject.ctx.reportAny (Rule.switch? ty) keyword⟩

end BodyCheck.Header
