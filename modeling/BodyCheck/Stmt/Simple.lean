import BodyCheck.Stmt.Construction
import BodyCheck.Stmt.Rule

/-!
# Analysis of simple statements

A simple statement has its expressions analyzed and is then held against the rule for its kind.
Two kinds of simple statements may be at fault: a case that does not stand in a switch, and an
assertion of nothing.

## Main definitions

* `Simple.analyze` — the analysis of a simple statement.
-/

namespace BodyCheck.Simple

/-- Checks the place of a jump and, if that is right, its label. -/
def analyzeJump (kind : JumpKind) (keyword : Token) (label : Option Token) (ctx : Context) :
    Context :=
  let owners := ctx.stack.owners
  match Rule.jump? kind owners, label with
  | some problem, _ => ctx.report problem keyword
  | none, none => ctx
  | none, some label =>
    (ctx.tell (.labelResolved label.value (Rule.isLabelAround label.value owners))).reportAny
      (Rule.label? label.value owners) label

/-- Analyzes the only expression of a statement and then applies the rule of the statement. -/
def analyzeWith (e : Expr) (ctx : Context) (keyword : Token) (rule : Expr → Option Problem) :
    Expr × Context :=
  let e := e.analyze ctx
  (e.expr, if e.ok then e.ctx.reportAny (rule e.expr) keyword else e.ctx)

/-- Analyzes the expressions of a statement and then applies the rule of the statement. -/
def analyzeAllWith (es : List Expr) (ctx : Context) (keyword : Token)
    (rule : List Expr → Option Problem) : List Expr × Context :=
  let es := Expr.analyzeWhileOk es ctx
  (es.1, if es.2.2 then es.2.1.reportAny (rule es.1) keyword else es.2.1)

/-- Analyzes a case.  It is at fault if the innermost block is not that of a switch, unless its
expression is wrong already. -/
def analyzeCase (keyword : Token) (e : Expr) (ctx : Context) : Outcome Simple :=
  let e := e.analyze ctx
  if e.ok then
    match e.ctx.stack.top.owner.subject? with
    | some subject =>
      .done (caseLabel keyword e.expr) (e.ctx.reportAny (Rule.case? subject e.expr.ty?) keyword)
    | none => ⟨caseLabel keyword e.expr, e.ctx, some ⟨.caseOutsideSwitch, keyword⟩⟩
  else .done (caseLabel keyword e.expr) e.ctx

/-- Analyzes a simple statement. -/
def analyze : Simple → Context → Outcome Simple
  | construct target args resolution, ctx =>
    let r := analyzeConstruct target args resolution ctx
    .done r.1 r.2
  | expression e, ctx =>
    let e := e.analyze ctx
    .done (expression e.expr) e.ctx
  | ret keyword e, ctx =>
    let r := analyzeWith e ctx keyword fun e => Rule.return? ctx.function.returns e.ty?
    .done (ret keyword r.1) r.2
  | delete keyword e, ctx =>
    let r := analyzeWith e ctx keyword Rule.delete?
    .done (delete keyword r.1) r.2
  | jump kind keyword label, ctx =>
    .done (jump kind keyword label) (analyzeJump kind keyword label ctx)
  | caseLabel keyword e, ctx => analyzeCase keyword e ctx
  | defaultLabel keyword, ctx => .done (defaultLabel keyword) ctx
  | assert keyword [], ctx => ⟨assert keyword [], ctx, some ⟨.emptyAssertion, keyword⟩⟩
  | assert keyword (e :: es), ctx =>
    let r := analyzeAllWith (e :: es) ctx keyword fun es =>
      Rule.assert? (es.getLast?.bind Expr.ty?)
    .done (assert keyword r.1) r.2
  | log keyword es, ctx =>
    let r := analyzeAllWith es ctx keyword fun es => Rule.log? (es.map Expr.ty?)
    .done (log keyword r.1) r.2

end BodyCheck.Simple
