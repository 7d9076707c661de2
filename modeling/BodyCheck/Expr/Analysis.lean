import BodyCheck.Context
import BodyCheck.Expr.Basic

/-!
# Analysis of expressions

Analyzing an expression finds its type, follows the assignments in it, and reports what is wrong
with it, in the order of evaluation and no more than one problem.

## Main definitions

* `Expr.Checked` — an expression after its analysis, with the context behind it.
* `Expr.analyze` — the analysis of one expression.
* `Expr.analyzeWhileOk` — of several, up to the first that is wrong.
* `Expr.analyzeArgs` — of the arguments of a call, up to the first that gives no type.

## Design notes

An analysis that reports a problem leaves the type of its node as it was.  So does access by key
to a base whose type is not known, which is not reported as wrong.
-/

namespace BodyCheck.Expr

/-- An expression after its analysis; `ok` tells that no problem was reported. -/
structure Checked where
  expr : Expr
  ctx : Context
  ok : Bool
deriving Repr, Inhabited

/-- Analyzes an expression, operands first and from left to right. -/
def analyze : Expr → Context → Checked
  | value token content known, ctx =>
    match content with
    | .typed ty => ⟨value token content (some ty), ctx, true⟩
    | .failing message =>
      ⟨value token content known, ctx.report (.stated .type message) token, false⟩
    | .untyped => ⟨value token content none, ctx, true⟩
  | read token declared known, ctx =>
    match ctx.locals.status? token.value with
    | some .set => ⟨read token declared (some declared), ctx, true⟩
    | some .unset =>
      ⟨read token declared known, ctx.report (.uninitialized token.value) token, false⟩
    | none => ⟨read token declared known, ctx.report (.undeclared token.value) token, false⟩
  | assign token source known, ctx =>
    let source := source.analyze ctx
    if source.ok then
      match source.ctx.locals.assign? token.value with
      | some locals => ⟨assign token source.expr source.expr.ty?, source.ctx.setLocals locals, true⟩
      | none =>
        ⟨assign token source.expr known, source.ctx.report (.undeclared token.value) token, false⟩
    else ⟨assign token source.expr known, source.ctx, false⟩
  | index token base key known, ctx =>
    let base := base.analyze ctx
    if base.ok then
      let key := key.analyze base.ctx
      if key.ok then
        match base.expr.ty? with
        | none => ⟨index token base.expr key.expr known, key.ctx, true⟩
        | some ty =>
          match ty.indexed? with
          | some element => ⟨index token base.expr key.expr (some element), key.ctx, true⟩
          | none =>
            ⟨index token base.expr key.expr known,
              key.ctx.report (.notIndexable ty.defined) token, false⟩
      else ⟨index token base.expr key.expr known, key.ctx, false⟩
    else ⟨index token base.expr key known, base.ctx, false⟩

/-- Analyzes an expression that may be absent, whatever comes of it. -/
def analyzeOptional : Option Expr → Context → Option Expr × Context
  | none, ctx => (none, ctx)
  | some e, ctx =>
    let e := e.analyze ctx
    (some e.expr, e.ctx)

/-- Analyzes expressions in order up to the first that is wrong; the last component tells whether
there is none. -/
def analyzeWhileOk : List Expr → Context → List Expr × Context × Bool
  | [], ctx => ([], ctx, true)
  | e :: es, ctx =>
    let e := e.analyze ctx
    if e.ok then
      let rest := analyzeWhileOk es e.ctx
      (e.expr :: rest.1, rest.2)
    else (e.expr :: es, e.ctx, false)

/-- Analyzes arguments in order up to the first that is wrong or of unknown type; the last
component holds their types if there is none. -/
def analyzeArgs : List Expr → Context → List Expr × Context × Option (List Ty)
  | [], ctx => ([], ctx, some [])
  | e :: es, ctx =>
    let e := e.analyze ctx
    match e.ok, e.expr.ty? with
    | true, some ty =>
      let rest := analyzeArgs es e.ctx
      (e.expr :: rest.1, rest.2.1, rest.2.2.map (ty :: ·))
    | _, _ => (e.expr :: es, e.ctx, none)

end BodyCheck.Expr
