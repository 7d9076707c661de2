import BodyCheck.Expr.Analysis

/-!
# Steps of the analysis of expressions

All ways in which the analysis of a read, of an assignment and of an access by key can go, each with
what is then known and what comes of the analysis.

## Main definitions

* `Expr.Checked.learnt?` — the type that an analysis has learnt.

## Main statements

* `Expr.analyze_read_cases`, `Expr.analyze_assign_cases`, `Expr.analyze_index_cases`.
-/

namespace BodyCheck.Expr

/-- The type that an analysis has learnt: none if it has found something wrong. -/
def Checked.learnt? (checked : Checked) : Option Ty :=
  if checked.ok then checked.expr.ty? else none

/-- A type is learnt of an expression just if nothing is wrong with it and its type is known. -/
theorem Checked.learnt?_eq_some_iff {checked : Checked} {ty : Ty} :
    checked.learnt? = some ty ↔ checked.ok = true ∧ checked.expr.ty? = some ty := by
  cases ok : checked.ok <;> simp [learnt?, ok]

theorem Checked.learnt?_of_ok {checked : Checked} (ok : checked.ok = true) :
    checked.learnt? = checked.expr.ty? :=
  if_pos ok

theorem Checked.learnt?_of_not_ok {checked : Checked} (wrong : checked.ok = false) :
    checked.learnt? = none :=
  if_neg (Bool.eq_false_iff.mp wrong)

/-- A read finds its variable undeclared, unset or set. -/
theorem analyze_read_cases (token : Token) (declared : Ty) (known : Option Ty) (ctx : Context) :
    (ctx.locals.status? token.value = none ∧
      (read token declared known).analyze ctx
        = ⟨read token declared known, ctx.report (.undeclared token.value) token, false⟩) ∨
    (ctx.locals.status? token.value = some .unset ∧
      (read token declared known).analyze ctx
        = ⟨read token declared known, ctx.report (.uninitialized token.value) token, false⟩) ∨
    (ctx.locals.status? token.value = some .set ∧
      (read token declared known).analyze ctx
        = ⟨read token declared (some declared), ctx, true⟩) := by
  rw [analyze]
  rcases ctx.locals.status? token.value with _ | _ | _
  · exact .inl ⟨rfl, rfl⟩
  · exact .inr (.inl ⟨rfl, rfl⟩)
  · exact .inr (.inr ⟨rfl, rfl⟩)

/-- An assignment stops at what is assigned, finds its variable undeclared, or sets it. -/
theorem analyze_assign_cases (token : Token) (source : Expr) (known : Option Ty) (ctx : Context) :
    ((source.analyze ctx).ok = false ∧
      (assign token source known).analyze ctx
        = ⟨assign token (source.analyze ctx).expr known, (source.analyze ctx).ctx, false⟩) ∨
    ((source.analyze ctx).ok = true ∧
      (source.analyze ctx).ctx.locals.status? token.value = none ∧
      (assign token source known).analyze ctx
        = ⟨assign token (source.analyze ctx).expr known,
            (source.analyze ctx).ctx.report (.undeclared token.value) token, false⟩) ∨
    ∃ locals, (source.analyze ctx).ok = true ∧
      (source.analyze ctx).ctx.locals.assign? token.value = some locals ∧
      (assign token source known).analyze ctx
        = ⟨assign token (source.analyze ctx).expr (source.analyze ctx).expr.ty?,
            (source.analyze ctx).ctx.setLocals locals, true⟩ := by
  cases ok : (source.analyze ctx).ok with
  | false =>
    refine .inl ⟨rfl, ?_⟩
    simp [analyze, ok]
  | true =>
    cases assigned : (source.analyze ctx).ctx.locals.assign? token.value with
    | none =>
      refine .inr (.inl ⟨rfl, Locals.assign?_eq_none_iff.1 assigned, ?_⟩)
      simp [analyze, ok, assigned]
    | some locals =>
      refine .inr (.inr ⟨locals, rfl, rfl, ?_⟩)
      simp [analyze, ok, assigned]

/-- An access by key stops at its base or at its key, knows nothing of its base, finds that the base
has no elements, or finds their type. -/
theorem analyze_index_cases (token : Token) (base key : Expr) (known : Option Ty) (ctx : Context) :
    let b := base.analyze ctx
    let k := key.analyze b.ctx
    (b.ok = false ∧
      (index token base key known).analyze ctx = ⟨index token b.expr key known, b.ctx, false⟩) ∨
    (b.ok = true ∧ k.ok = false ∧
      (index token base key known).analyze ctx = ⟨index token b.expr k.expr known, k.ctx, false⟩) ∨
    (b.ok = true ∧ k.ok = true ∧ b.expr.ty? = none ∧
      (index token base key known).analyze ctx = ⟨index token b.expr k.expr known, k.ctx, true⟩) ∨
    (∃ ty, b.ok = true ∧ k.ok = true ∧ b.expr.ty? = some ty ∧ ty.indexed? = none ∧
      (index token base key known).analyze ctx
        = ⟨index token b.expr k.expr known, k.ctx.report (.notIndexable ty.defined) token, false⟩) ∨
    ∃ ty element, b.ok = true ∧ k.ok = true ∧ b.expr.ty? = some ty ∧ ty.indexed? = some element ∧
      (index token base key known).analyze ctx
        = ⟨index token b.expr k.expr (some element), k.ctx, true⟩ := by
  intro b k
  cases okBase : b.ok with
  | false =>
    refine .inl ⟨rfl, ?_⟩
    simp [analyze, b, okBase]
  | true =>
    cases okKey : k.ok with
    | false =>
      refine .inr (.inl ⟨rfl, rfl, ?_⟩)
      simp [analyze, b, k, okBase, okKey]
    | true =>
      cases known' : b.expr.ty? with
      | none =>
        refine .inr (.inr (.inl ⟨rfl, rfl, rfl, ?_⟩))
        simp [analyze, b, k, okBase, okKey, known']
      | some ty =>
        cases elements : ty.indexed? with
        | none =>
          refine .inr (.inr (.inr (.inl ⟨ty, rfl, rfl, rfl, elements, ?_⟩)))
          simp [analyze, b, k, okBase, okKey, known', elements]
        | some element =>
          refine .inr (.inr (.inr (.inr ⟨ty, element, rfl, rfl, rfl, elements, ?_⟩)))
          simp [analyze, b, k, okBase, okKey, known', elements]

end BodyCheck.Expr
