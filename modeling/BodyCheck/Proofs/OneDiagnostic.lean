import BodyCheck.Proofs.Faults
import Mathlib.Algebra.GroupWithZero.Nat

/-!
# One defect, one diagnostic

However much of a statement a defect spoils, it is reported once.  An expression with a problem
tells its surroundings so, and they add nothing to it; a rule is held only against expressions that
have no problem; and a statement at fault has no diagnostic at all.  The expressions in the header
of a for loop are checked one by one, so each of them may have a problem of its own.

## Main definitions

* `Context.FindsAtMost` — no more than so many diagnostics have been found.
* `Stmt.allowance` — how many the checks of a statement itself may find.
* `Stmt.analyzeExprs` — the expressions of a statement without its rule.
* `Visit.ReportsOnce` — what the checks at a visit report.

## Main statements

* `Expr.ok_eq_false_iff`, `Expr.ok_eq_true_iff` — an expression with a problem has one diagnostic.
* `Visit.reportsOnce` — so has a statement, unless it is a for loop.
* `Stmt.findsAtMost_analyze` — how many are found in a tree.
* `Stmt.one_defect_one_diagnostic` — all this together.

## Design notes

A bound for one statement does not say that nothing follows upon a problem in an expression, since
the header of a for loop may have several.  So `Context.JudgedOnce` says this by itself, and for all
other statements the bound is derived from it.
-/

namespace BodyCheck

/-! ## Counting what is found -/

/-- No more than `n` diagnostics have been found on the way from `before` to `after`. -/
def Context.FindsAtMost (n : Nat) (before after : Context) : Prop :=
  ∃ found, after.diagnostics = before.diagnostics ++ found ∧ found.length ≤ n

namespace Context.FindsAtMost

variable {m n : Nat} {a b c : Context}

theorem of_eq (same : b.diagnostics = a.diagnostics) : FindsAtMost n a b :=
  ⟨[], by rw [same, List.append_nil], Nat.zero_le n⟩

theorem refl (a : Context) : FindsAtMost n a a :=
  of_eq rfl

/-- A bound may be raised. -/
theorem mono (h : FindsAtMost m a b) (le : m ≤ n) : FindsAtMost n a b := by
  obtain ⟨found, added, bound⟩ := h
  exact ⟨found, added, Nat.le_trans bound le⟩

/-- Bounds add up along the way. -/
theorem trans (h : FindsAtMost m a b) (h' : FindsAtMost n b c) : FindsAtMost (m + n) a c := by
  obtain ⟨found, added, bound⟩ := h
  obtain ⟨found', added', bound'⟩ := h'
  refine ⟨found ++ found', by rw [added', added, List.append_assoc], ?_⟩
  rw [List.length_append]
  exact Nat.add_le_add bound bound'

/-- Reporting a problem that may be there finds one at most. -/
theorem reportAny (a : Context) (problem : Option Problem) (token : Token) :
    FindsAtMost 1 a (a.reportAny problem token) := by
  cases problem with
  | none => exact refl a
  | some problem => exact ⟨[⟨problem, token⟩], rfl, Nat.le_refl 1⟩

theorem length_le (h : FindsAtMost n a b) : b.diagnostics.length ≤ a.diagnostics.length + n := by
  obtain ⟨found, added, bound⟩ := h
  rw [added, List.length_append]
  exact Nat.add_le_add_left bound _

/-- A block finds what is found inside it. -/
theorem within {α : Type} (owner : Owner) {analyze : Context → Outcome α}
    (h : FindsAtMost n (a.enter owner) (analyze (a.enter owner)).ctx) :
    FindsAtMost n a (a.within owner analyze).ctx :=
  h

theorem passing {outcome : Outcome Stmt} (h : FindsAtMost n a outcome.ctx) :
    FindsAtMost n a outcome.passing.ctx := by
  obtain ⟨node, ctx, _ | fault⟩ := outcome <;> exact h

/-- The bounds of the two parts of a sequence add up, and the second is there for nothing after a
fault. -/
theorem andThen {α β : Type} {outcome : Outcome α} {analyze : Context → Outcome β}
    (h : FindsAtMost m a outcome.ctx) (following : β)
    (rest : ∀ ctx : Context, FindsAtMost n ctx (analyze ctx).ctx) :
    FindsAtMost (m + n) a (outcome.andThen following analyze).ctx := by
  obtain ⟨node, ctx, _ | fault⟩ := outcome
  · exact h.trans (rest ctx)
  · exact h.mono (Nat.le_add_right m n)

end Context.FindsAtMost

/-! ## Expressions -/

namespace Expr

open Context (FindsAtMost)

variable {e : Expr} {ctx : Context}

/-- Nothing is wrong with an expression just if it adds no diagnostic. -/
theorem ok_eq_true_iff :
    (e.analyze ctx).ok = true ↔ (e.analyze ctx).ctx.diagnostics = ctx.diagnostics :=
  ⟨e.diagnostics_of_ok ctx, ok_of_silent⟩

/-- Something is wrong with an expression just if it adds one diagnostic. -/
theorem ok_eq_false_iff :
    (e.analyze ctx).ok = false ↔
      ∃ found, (e.analyze ctx).ctx.diagnostics = ctx.diagnostics ++ [found] := by
  constructor
  · exact e.exists_diagnostic_of_not_ok ctx
  · rintro ⟨found, added⟩
    rw [Bool.eq_false_iff, Ne, ok_eq_true_iff, added]
    simp

/-- One diagnostic at most is found in an expression. -/
theorem findsAtMost_analyze (e : Expr) (ctx : Context) : FindsAtMost 1 ctx (e.analyze ctx).ctx := by
  cases ok : (e.analyze ctx).ok with
  | true => exact .of_eq (ok_eq_true_iff.mp ok)
  | false =>
    obtain ⟨found, added⟩ := ok_eq_false_iff.mp ok
    exact ⟨[found], added, Nat.le_refl 1⟩

theorem findsAtMost_analyzeEach (es : List Expr) (ctx : Context) :
    FindsAtMost es.length ctx (analyzeEach es ctx) := by
  induction es generalizing ctx with
  | nil => exact .refl ctx
  | cons e es ih =>
    rw [List.length_cons, Nat.add_comm]
    exact (e.findsAtMost_analyze ctx).trans (ih _)

/-- The analysis up to the first expression with a problem adds nothing if there is none. -/
theorem diagnostics_analyzeWhileOk {es : List Expr} (ok : (analyzeWhileOk es ctx).2.2 = true) :
    (analyzeWhileOk es ctx).2.1.diagnostics = ctx.diagnostics := by
  induction es generalizing ctx with
  | nil => rfl
  | cons e es ih =>
    rw [analyzeWhileOk] at ok ⊢
    cases first : (e.analyze ctx).ok with
    | true =>
      simp only [first, if_true] at ok ⊢
      exact (ih ok).trans (ok_eq_true_iff.mp first)
    | false => simp [first] at ok

/-- Up to the first that is wrong there is one at most in all of them. -/
theorem findsAtMost_analyzeWhileOk (es : List Expr) (ctx : Context) :
    FindsAtMost 1 ctx (analyzeWhileOk es ctx).2.1 := by
  induction es generalizing ctx with
  | nil => exact .refl ctx
  | cons e es ih =>
    rw [analyzeWhileOk]
    cases first : (e.analyze ctx).ok with
    | true =>
      simp only [if_true]
      exact FindsAtMost.trans (m := 0) (.of_eq (ok_eq_true_iff.mp first)) (ih _)
    | false =>
      simp only [Bool.false_eq_true, if_false]
      exact e.findsAtMost_analyze ctx

/-- Arguments whose types are all known have no problem. -/
theorem diagnostics_analyzeArgs {es : List Expr} {tys : List Ty}
    (known : (analyzeArgs es ctx).2.2 = some tys) :
    (analyzeArgs es ctx).2.1.diagnostics = ctx.diagnostics := by
  induction es generalizing ctx tys with
  | nil => rfl
  | cons e es ih =>
    rw [analyzeArgs] at known ⊢
    cases first : (e.analyze ctx).ok with
    | true =>
      cases isTy : (e.analyze ctx).expr.ty? with
      | some ty =>
        simp only [first, isTy, Option.map_eq_some_iff] at known ⊢
        obtain ⟨others, rest, -⟩ := known
        exact (ih rest).trans (ok_eq_true_iff.mp first)
      | none => simp [first, isTy] at known
    | false => simp [first] at known

theorem findsAtMost_analyzeArgs (es : List Expr) (ctx : Context) :
    FindsAtMost 1 ctx (analyzeArgs es ctx).2.1 := by
  induction es generalizing ctx with
  | nil => exact .refl ctx
  | cons e es ih =>
    rw [analyzeArgs]
    dsimp only
    split
    next ty first _ => exact FindsAtMost.trans (m := 0) (.of_eq (ok_eq_true_iff.mp first)) (ih _)
    next => exact e.findsAtMost_analyze ctx

end Expr

/-! ## The checks of a statement itself -/

/-- What comes of the expressions of a statement, in the context `exprs`, and then of its rule: the
rule adds a diagnostic only if the expressions have none. -/
inductive Context.JudgedOnce (before exprs after : Context) : Prop
  | asIs (same : after.diagnostics = exprs.diagnostics)
  | byRule (quiet : exprs.diagnostics = before.diagnostics) (found : Diagnostic)
      (added : after.diagnostics = exprs.diagnostics ++ [found])

namespace Context.JudgedOnce

variable {before exprs after : Context}

/-- A rule may be held against expressions without a problem. -/
theorem reportAny (quiet : exprs.diagnostics = before.diagnostics) (problem : Option Problem)
    (token : Token) : JudgedOnce before exprs (exprs.reportAny problem token) := by
  cases problem with
  | none => exact .asIs rfl
  | some problem => exact .byRule quiet ⟨problem, token⟩ rfl

theorem findsAtMost (h : JudgedOnce before exprs after) (bound : FindsAtMost 1 before exprs) :
    FindsAtMost 1 before after := by
  rcases h with same | ⟨quiet, found, added⟩
  · exact bound.trans (n := 0) (.of_eq same)
  · exact ⟨[found], by rw [added, quiet], Nat.le_refl 1⟩

end Context.JudgedOnce

namespace Simple

open Context (FindsAtMost JudgedOnce)

/-- Analyzes the expressions of a simple statement, as far as this comes before its rule. -/
def analyzeExprs : Simple → Context → Context
  | construct target args _, ctx =>
    match target.resolve ctx with
    | .ok _ => (Expr.analyzeArgs args ctx).2.1
    | .error _ => ctx
  | expression e, ctx | ret _ e, ctx | delete _ e, ctx | caseLabel _ e, ctx => (e.analyze ctx).ctx
  | jump .., ctx | defaultLabel _, ctx => ctx
  | assert _ exprs, ctx | log _ exprs, ctx => (Expr.analyzeWhileOk exprs ctx).2.1

/-- The expressions that come before the rule have one diagnostic at most. -/
theorem findsAtMost_analyzeExprs (s : Simple) (ctx : Context) :
    FindsAtMost 1 ctx (s.analyzeExprs ctx) := by
  cases s with
  | construct target args known =>
    rw [analyzeExprs]
    split
    · exact Expr.findsAtMost_analyzeArgs args ctx
    · exact .refl ctx
  | expression e | ret keyword e | delete keyword e | caseLabel keyword e =>
    exact e.findsAtMost_analyze ctx
  | jump kind keyword label | defaultLabel keyword => exact .refl ctx
  | assert keyword exprs | log keyword exprs => exact Expr.findsAtMost_analyzeWhileOk exprs ctx

/-- The rule is held against a single expression only if nothing is wrong with it. -/
theorem analyzeWith_judgedOnce (e : Expr) (ctx : Context) (keyword : Token)
    (rule : Expr → Option Problem) :
    JudgedOnce ctx (e.analyze ctx).ctx (analyzeWith e ctx keyword rule).2 := by
  rw [analyzeWith]
  dsimp only
  split
  next ok => exact .reportAny (e.diagnostics_of_ok ctx ok) ..
  next => exact .asIs rfl

theorem analyzeAllWith_judgedOnce (es : List Expr) (ctx : Context) (keyword : Token)
    (rule : List Expr → Option Problem) :
    JudgedOnce ctx (Expr.analyzeWhileOk es ctx).2.1 (analyzeAllWith es ctx keyword rule).2 := by
  rw [analyzeAllWith]
  dsimp only
  split
  next ok => exact .reportAny (Expr.diagnostics_analyzeWhileOk ok) ..
  next => exact .asIs rfl

/-- An overload is chosen only if the types of all arguments are known, and so none is wrong. -/
theorem analyzeConstruct_judgedOnce (target : QualifiedName) (args : List Expr)
    (known : Option Resolution) (ctx : Context) :
    JudgedOnce ctx ((construct target args known).analyzeExprs ctx)
      (analyzeConstruct target args known ctx).2 := by
  rw [analyzeConstruct, analyzeExprs]
  cases target.resolve ctx with
  | error problem => exact .byRule rfl _ rfl
  | ok cls =>
    dsimp only
    split
    next => exact .asIs rfl
    next tys known =>
      split
      next => exact .asIs rfl
      next error _ => exact .byRule (Expr.diagnostics_analyzeArgs known) _ rfl

/-- A jump is misplaced or has a label that is not around, but not both. -/
theorem analyzeJump_judgedOnce (kind : JumpKind) (keyword : Token) (label : Option Token)
    (ctx : Context) : JudgedOnce ctx ctx (analyzeJump kind keyword label ctx) := by
  unfold analyzeJump
  dsimp only
  split
  next => exact .byRule rfl _ rfl
  next => exact .asIs rfl
  next label _ =>
    -- That a label is looked up is told, but it is no diagnostic.
    cases Rule.label? label.value ctx.stack.owners with
    | none => exact .asIs rfl
    | some problem => exact .byRule rfl ⟨problem, label⟩ rfl

/-- A case is held against the subject only if nothing is wrong with its expression. -/
theorem analyzeCase_judgedOnce (keyword : Token) (e : Expr) (ctx : Context) :
    JudgedOnce ctx (e.analyze ctx).ctx (analyzeCase keyword e ctx).ctx := by
  rcases analyzeCase_cases keyword e ctx with ⟨-, step⟩ | ⟨subject, ok, -, step⟩ | ⟨-, -, step⟩
  · rw [step]
    exact .asIs rfl
  · rw [step]
    exact .reportAny (e.diagnostics_of_ok ctx ok) ..
  · rw [step]
    exact .asIs rfl

/-- The rule of a simple statement is held only against expressions without a problem. -/
theorem analyze_judgedOnce (s : Simple) (ctx : Context) :
    JudgedOnce ctx (s.analyzeExprs ctx) (s.analyze ctx).ctx := by
  cases s with
  | construct target args known => exact analyzeConstruct_judgedOnce target args known ctx
  | expression e => exact .asIs rfl
  | ret keyword e =>
    rw [analyze, Outcome.ctx_done]
    exact analyzeWith_judgedOnce ..
  | delete keyword e => exact analyzeWith_judgedOnce e ctx keyword _
  | jump kind keyword label => exact analyzeJump_judgedOnce kind keyword label ctx
  | caseLabel keyword e => exact analyzeCase_judgedOnce keyword e ctx
  | defaultLabel keyword => exact .asIs rfl
  | assert keyword exprs =>
    cases exprs with
    | nil => exact .asIs rfl
    | cons e es =>
      rw [analyze, Outcome.ctx_done]
      exact analyzeAllWith_judgedOnce ..
  | log keyword exprs =>
    rw [analyze, Outcome.ctx_done]
    exact analyzeAllWith_judgedOnce ..

end Simple

open Context (FindsAtMost JudgedOnce)

/-- The analysis of a for loop's header is that of its expressions one by one. -/
theorem Header.ctx_analyze_forLoop (keyword : Token) (start cond step : Option Expr)
    (ctx : Context) :
    ((forLoop start cond step).analyze keyword ctx).ctx
      = Expr.analyzeEach (forLoop start cond step).exprs ctx := by
  cases start <;> cases cond <;> cases step <;> rfl

/-- A subject is judged only if nothing is wrong with it, and no other header is judged. -/
theorem Header.analyze_judgedOnce (keyword : Token) (header : Header) (ctx : Context) :
    JudgedOnce ctx (Expr.analyzeEach header.exprs ctx) (header.analyze keyword ctx).ctx := by
  cases header with
  | doWhile e | forIn loopVariable e | whileLoop e => exact .asIs rfl
  | forLoop start cond step =>
    rw [ctx_analyze_forLoop]
    exact .asIs rfl
  | switch subject =>
    rw [analyze]
    cases ok : (subject.analyze ctx).ok with
    | true => exact .reportAny (subject.diagnostics_of_ok ctx ok) ..
    | false => exact .asIs rfl

namespace Stmt

/-- How many diagnostics the checks of a statement itself may find: one, and in a for loop one for
each expression of its header. -/
def allowance : Stmt → Nat
  | breakable _ _ (.forLoop start cond step) _ => (Header.forLoop start cond step).exprs.length
  | _ => 1

/-- Analyzes the expressions of a statement itself, as far as this comes before its rule. -/
def analyzeExprs : Stmt → Context → Context
  | simple s, ctx => s.analyzeExprs ctx
  | breakable _ _ header _, ctx => Expr.analyzeEach header.exprs ctx
  | ifElse _ cond _ _, ctx => (cond.analyze ctx).ctx
  | guarded .., ctx => ctx

/-- The rule of a statement is held only against expressions without a problem. -/
theorem checkOwn_judgedOnce (s : Stmt) (ctx : Context) :
    JudgedOnce ctx (s.analyzeExprs ctx) (s.checkOwn ctx) := by
  cases s with
  | simple s => exact s.analyze_judgedOnce ctx
  | breakable keyword label header body => exact header.analyze_judgedOnce keyword ctx
  | ifElse keyword cond onTrue onFalse => exact .asIs rfl
  | guarded keyword body caught handler finalizer => exact .asIs rfl

/-- The checks of a statement itself find no more than its allowance. -/
theorem checkOwn_findsAtMost (s : Stmt) (ctx : Context) :
    FindsAtMost s.allowance ctx (s.checkOwn ctx) := by
  cases s with
  | simple s => exact (s.analyze_judgedOnce ctx).findsAtMost (s.findsAtMost_analyzeExprs ctx)
  | breakable keyword label header body =>
    have judged := header.analyze_judgedOnce keyword ctx
    cases header with
    | doWhile e | forIn loopVariable e | whileLoop e | switch e =>
      exact judged.findsAtMost (e.findsAtMost_analyze ctx)
    | forLoop start cond step =>
      rw [checkOwn, Header.ctx_analyze_forLoop]
      exact Expr.findsAtMost_analyzeEach _ ctx
  | ifElse keyword cond onTrue onFalse => exact cond.findsAtMost_analyze ctx
  | guarded keyword body caught handler finalizer => exact .refl ctx

end Stmt

/-- What the checks at a visit, which may be to any statement in any context, report. -/
structure Visit.ReportsOnce (v : Visit) : Prop where
  bounded : FindsAtMost v.stmt.allowance v.ctx (v.stmt.checkOwn v.ctx)
  /-- Nothing follows upon a problem that an expression has. -/
  noFollowUp : JudgedOnce v.ctx (v.stmt.analyzeExprs v.ctx) (v.stmt.checkOwn v.ctx)
  /-- Of a for loop nothing is checked but the expressions, one by one. -/
  forLoop : ∀ keyword label start cond step body,
    v.stmt = .breakable keyword label (.forLoop start cond step) body →
      v.stmt.checkOwn v.ctx = Expr.analyzeEach (Header.forLoop start cond step).exprs v.ctx
  /-- A statement that is at fault by itself has no diagnostic. -/
  faulty : ∀ fault, v.fault? = some fault →
    (v.stmt.checkOwn v.ctx).diagnostics = v.ctx.diagnostics

/-- The checks of a visited statement report once, whatever statement it is. -/
theorem Visit.reportsOnce (v : Visit) : v.ReportsOnce where
  bounded := v.stmt.checkOwn_findsAtMost v.ctx
  noFollowUp := v.stmt.checkOwn_judgedOnce v.ctx
  forLoop keyword label start cond step body isLoop := by
    rw [isLoop]
    exact Header.ctx_analyze_forLoop keyword start cond step v.ctx
  faulty fault raised := by
    rw [v.diagnostics_checkOwn, found_of_fault? raised, List.append_nil]

/-! ## The diagnostics of a tree -/

namespace Stmt

/-- How many diagnostics statements may have, by what each of them may have. -/
def allowanceOf (statements : List Stmt) : Nat :=
  (statements.map allowance).sum

/-- What a list is allowed is what its first statement is and what the others are. -/
theorem allowanceOf_cons (s : Stmt) (rest : List Stmt) :
    allowanceOf (s :: rest) = s.allowance + allowanceOf rest :=
  List.sum_cons

/-- What two lists are allowed adds up. -/
theorem allowanceOf_append (a b : List Stmt) :
    allowanceOf (a ++ b) = allowanceOf a + allowanceOf b := by
  rw [allowanceOf, List.map_append, List.sum_append]
  rfl

/-- Only for loops with several expressions may have more diagnostics than one. -/
theorem allowanceOf_le (statements : List Stmt) :
    allowanceOf statements ≤ statements.length + (statements.map (·.allowance - 1)).sum := by
  induction statements with
  | nil => exact Nat.le_refl 0
  | cons s rest ih =>
    rw [allowanceOf_cons, List.length_cons, List.map_cons, List.sum_cons]
    omega

open Context.FindsAtMost

mutual

/-- A statement finds no more than is allowed to it and to those inside it. -/
theorem findsAtMost_analyze : (s : Stmt) → (ctx : Context) →
    FindsAtMost (allowanceOf s.inOrder) ctx (s.analyze ctx).ctx
  | simple s, ctx => by
    rw [analyze, inOrder]
    exact passing (checkOwn_findsAtMost (simple s) ctx)
  | breakable keyword label header body, ctx => by
    rw [analyze, inOrder, allowanceOf_cons]
    have own := checkOwn_findsAtMost (breakable keyword label header body) ctx
    exact passing (own.trans (within _ (findsAtMost_analyzeList body _)))
  | ifElse keyword cond onTrue onFalse, ctx => by
    rw [analyze, inOrder, allowanceOf_cons, allowanceOf_append]
    have own := checkOwn_findsAtMost (ifElse keyword cond onTrue onFalse) ctx
    have insideTrue := within .branch
      (findsAtMost_analyzeList onTrue ((cond.analyze ctx).ctx.enter .branch))
    have insideFalse (ctx : Context) := within .branch
      (findsAtMost_analyzeList onFalse (ctx.enter .branch))
    exact passing (own.trans (insideTrue.andThen onFalse insideFalse))
  | guarded keyword body caught handler finalizer, ctx => by
    rw [analyze, inOrder, allowanceOf_cons, allowanceOf_append, allowanceOf_append]
    have inside := within .guarded (findsAtMost_analyzeList body (ctx.enter .guarded))
    have parts := (inside.andThen handler (findsAtMost_analyzePart handler)).andThen finalizer
      (findsAtMost_analyzePart finalizer)
    exact passing (parts.mono (Nat.le_add_left _ _))

/-- A list of statements has no more diagnostics than the statements in it may have. -/
theorem findsAtMost_analyzeList : (body : List Stmt) → (ctx : Context) →
    FindsAtMost (allowanceOf (inOrderOfList body)) ctx (analyzeList body ctx).ctx
  | [], ctx => by
    rw [analyzeList]
    exact .refl ctx
  | s :: rest, ctx => by
    rw [analyzeList, inOrderOfList, allowanceOf_append]
    exact (findsAtMost_analyze s ctx).andThen rest (findsAtMost_analyzeList rest)

theorem findsAtMost_analyzePart : (part : Option (List Stmt)) → (ctx : Context) →
    FindsAtMost (allowanceOf (inOrderOfPart part)) ctx (analyzePart part ctx).ctx
  | none, ctx => by
    rw [analyzePart]
    exact .refl ctx
  | some body, ctx => by
    rw [analyzePart, inOrderOfPart]
    exact within .guarded (findsAtMost_analyzeList body _)

end

/-- The diagnostics of a tree are no more than its statements, but for those that for loops with
several expressions may have beyond one. -/
theorem length_diagnostics_le {statements : List Stmt} {before after : Context}
    (h : FindsAtMost (allowanceOf statements) before after) :
    after.diagnostics.length ≤ before.diagnostics.length + statements.length
      + (statements.map (·.allowance - 1)).sum := by
  have found := h.length_le
  have bound := allowanceOf_le statements
  omega

/-- The type of a subject with a problem is not known, and a case in such a switch finds nothing but
what its own expression finds. -/
theorem checkOwn_caseLabel_of_wrong_subject {subject : Expr} {ctx inner : Context}
    (wrong : (subject.analyze ctx).ok = false) {keyword : Token} {label : Option Token}
    (inside : inner.stack.top.owner
      = .breakable ((Header.switch subject).analyze keyword ctx).kind label)
    (caseKeyword : Token) (e : Expr) :
    (simple (.caseLabel caseKeyword e)).checkOwn inner = (e.analyze inner).ctx := by
  have unknown : ((Header.switch subject).analyze keyword ctx).kind = .switch none := by
    simp [Header.analyze, wrong]
  rw [unknown] at inside
  rw [checkOwn, Simple.analyze]
  rcases Simple.analyzeCase_cases caseKeyword e inner with
    ⟨-, step⟩ | ⟨found, -, isSubject, step⟩ | ⟨-, -, step⟩
  · rw [step]
    rfl
  · rw [inside] at isSubject
    cases isSubject
    rw [step]
    rfl
  · rw [step]

/-- **One defect, one diagnostic.**  An expression has a problem just if it adds one diagnostic, and
none just if it adds none.  The checks of a statement itself find one at most, or in a for loop one
for each expression of its header; they add nothing to what its expressions find, and find nothing
if the statement is at fault; nor do the cases of a switch add anything to a problem of its subject.
All that is found in a tree is found by these checks, so there are no more diagnostics than
statements, but for `k - 1` more for each for loop with `k` expressions. -/
theorem one_defect_one_diagnostic (ctx : Context) :
    (∀ e : Expr,
      ((e.analyze ctx).ok = false ↔
        ∃ found, (e.analyze ctx).ctx.diagnostics = ctx.diagnostics ++ [found]) ∧
      ((e.analyze ctx).ok = true ↔ (e.analyze ctx).ctx.diagnostics = ctx.diagnostics)) ∧
    (∀ (s : Stmt) (site : Site), (Visit.mk site s ctx).ReportsOnce) ∧
    (∀ (subject : Expr) (keyword : Token) (label : Option Token) (inner : Context),
      (subject.analyze ctx).ok = false →
      inner.stack.top.owner = .breakable ((Header.switch subject).analyze keyword ctx).kind label →
      ∀ caseKeyword e,
        (simple (.caseLabel caseKeyword e)).checkOwn inner = (e.analyze inner).ctx) ∧
    (∀ s : Stmt, (s.analyze ctx).ctx.diagnostics
        = ctx.diagnostics ++ (s.visits 0 ctx).flatMap Visit.found ∧
      (s.analyze ctx).ctx.diagnostics.length ≤ ctx.diagnostics.length + s.inOrder.length
        + (s.inOrder.map (·.allowance - 1)).sum) ∧
    ∀ body : List Stmt, (analyzeList body ctx).ctx.diagnostics
        = ctx.diagnostics ++ (visitsOfList 0 body ctx).flatMap Visit.found ∧
      (analyzeList body ctx).ctx.diagnostics.length
        ≤ ctx.diagnostics.length + (inOrderOfList body).length
          + ((inOrderOfList body).map (·.allowance - 1)).sum := by
  refine ⟨fun e => ⟨Expr.ok_eq_false_iff, Expr.ok_eq_true_iff⟩, fun s site => Visit.reportsOnce _,
    ?_, fun s => ?_, fun body => ?_⟩
  · intro subject keyword label inner wrong inside
    exact checkOwn_caseLabel_of_wrong_subject wrong inside
  · exact ⟨(attributes_visits 0 s ctx).found, length_diagnostics_le (findsAtMost_analyze s ctx)⟩
  · exact ⟨(attributes_visitsOfList 0 body ctx).found,
      length_diagnostics_le (findsAtMost_analyzeList body ctx)⟩

/-- A for loop with a problem in each of its three expressions has three diagnostics, a switch with
a problem in its subject has one and its case has none, and behind an assertion of nothing nothing is
found any more.  So there are four diagnostics of these five statements, of which the first may have
two beyond one. -/
theorem one_defect_one_diagnostic_of_loop :
    let wrong (name : String) : Expr := .value (.synthetic name) (.failing name) none
    let element : Expr := .index (.synthetic "[]") (wrong "base") (wrong "key") none
    let label : Stmt := .simple (.caseLabel (.synthetic "case")
      (.value (.synthetic "1") (.typed .int) none))
    let empty : Stmt := .simple (.assert (.synthetic "assert") [])
    let body : List Stmt :=
      [.breakable (.synthetic "for") none
        (.forLoop (some (wrong "start")) (some (wrong "cond")) (some element)) [],
        .breakable (.synthetic "switch") none (.switch (wrong "subject")) [label], empty,
        .simple (.expression (wrong "behind"))]
    let ctx := Context.start default .empty default
    let outcome := analyzeList body ctx
    let inner := ctx.enter (.breakable (.switch none) none)
    (element.analyze ctx).ok = false ∧
      (∃ found, (element.analyze ctx).ctx.diagnostics = ctx.diagnostics ++ [found]) ∧
      (label.checkOwn inner).diagnostics = inner.diagnostics ∧
      (empty.checkOwn ctx).diagnostics = ctx.diagnostics ∧
      outcome.ctx.diagnostics.length = 4 ∧ outcome.fault.isSome = true ∧
      outcome.ctx.diagnostics.length ≤ 5 + 2 := by
  intro wrong element label empty body ctx outcome inner
  obtain ⟨exprs, checks, cases', -, trees⟩ := one_defect_one_diagnostic ctx
  have isWrong : (element.analyze ctx).ok = false := by decide +kernel
  refine ⟨isWrong, (exprs element).1.mp isWrong, ?_, ?_, by decide +kernel, by decide +kernel,
    (trees body).2⟩
  · rw [cases' (wrong "subject") (.synthetic "switch") none inner rfl rfl (.synthetic "case")]
    rfl
  · exact (checks empty ⟨[], 0⟩).faulty ⟨.emptyAssertion, .synthetic "assert"⟩ rfl

end Stmt

end BodyCheck
