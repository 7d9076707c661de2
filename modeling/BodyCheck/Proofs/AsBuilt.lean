import BodyCheck.Proofs.StaticType
import BodyCheck.Stmt.Form

/-!
# Statements as they were built

Analysis changes nothing in a statement but what has been found about it, and what has been found
makes no difference to a later analysis.

## Main definitions

* `Stmt.asBuilt` — a statement with nothing found about it.
* `Stmt.Consistent` — all that has been found about its expressions are their static types.

## Main statements

* `Stmt.asBuilt_analyze`, `Stmt.consistent_analyze` — an analysis keeps what was built, and keeps a
  statement consistent.
* `Stmt.form_asBuilt` — the form of a statement is that of the statement as it was built.
* `Stmt.analyze_asBuilt` — the analysis of a consistent statement does what that of the statement as
  it was built does.

## Design notes

That two outcomes differ in nothing but in what has been found is said by `Outcome.map`: they are
equal once everything found is taken out of their nodes.  All operations on outcomes commute with
this, so the map can be moved to the lists inside a statement.
-/

namespace BodyCheck

/-! ## Simple statements and headers -/

namespace Simple

/-- The statement as it was built, with nothing found about it. -/
def asBuilt : Simple → Simple
  | construct target args _ => construct target (args.map Expr.asBuilt) none
  | expression e => expression e.asBuilt
  | ret keyword e => ret keyword e.asBuilt
  | delete keyword e => delete keyword e.asBuilt
  | jump kind keyword label => jump kind keyword label
  | caseLabel keyword e => caseLabel keyword e.asBuilt
  | defaultLabel keyword => defaultLabel keyword
  | assert keyword exprs => assert keyword (exprs.map Expr.asBuilt)
  | log keyword exprs => log keyword (exprs.map Expr.asBuilt)

/-- The types that have been found are the static types. -/
def Consistent (s : Simple) : Prop :=
  ∀ e ∈ s.exprs, e.Consistent

@[simp] theorem asBuilt_asBuilt (s : Simple) : s.asBuilt.asBuilt = s.asBuilt := by
  cases s <;> simp [asBuilt]

@[simp] theorem name_asBuilt (s : Simple) : s.asBuilt.name = s.name := by
  cases s with
  | jump kind keyword label => rfl
  | _ => rfl

@[simp] theorem token_asBuilt (s : Simple) : s.asBuilt.token = s.token := by
  cases s <;> simp [asBuilt, token]

@[simp] theorem form_asBuilt (s : Simple) : s.asBuilt.form = s.form := by
  cases s <;> simp [asBuilt, form, name, Expr.formOfList]

/-- Nothing is known of a statement as built that could be wrong. -/
theorem consistent_asBuilt (s : Simple) : s.asBuilt.Consistent := by
  cases s <;> simp [asBuilt, Consistent, exprs, Expr.consistent_asBuilt]

/-! ### Analysis -/

/-- An analysis changes nothing in a simple statement but what is known of it. -/
theorem asBuilt_analyze (s : Simple) (ctx : Context) :
    (s.analyze ctx).node.asBuilt = s.asBuilt := by
  cases s with
  | construct target args resolution =>
    rw [analyze, analyzeConstruct]
    dsimp only [Outcome.done]
    split
    · rfl
    · split
      · simp [asBuilt]
      · split <;> simp [asBuilt]
  | expression e | ret keyword e | delete keyword e =>
    simp [analyze, analyzeWith, Outcome.done, asBuilt]
  | jump kind keyword label | defaultLabel keyword => rfl
  | caseLabel keyword e =>
    rw [analyze, analyzeCase]
    split
    · split <;> simp [Outcome.done, asBuilt]
    · simp [Outcome.done, asBuilt]
  | assert keyword exprs =>
    cases exprs with
    | nil => rfl
    | cons e es => simp [analyze, analyzeAllWith, Outcome.done, asBuilt, -List.map_cons]
  | log keyword exprs => simp [analyze, analyzeAllWith, Outcome.done, asBuilt]

/-- What an analysis finds out of consistent expressions is consistent. -/
theorem consistent_analyze {s : Simple} (h : s.Consistent) (ctx : Context) :
    (s.analyze ctx).node.Consistent := by
  cases s with
  | construct target args resolution =>
    rw [analyze, analyzeConstruct]
    dsimp only [Outcome.done]
    split
    · exact h
    · split
      · exact Expr.consistent_analyzeArgs h ctx
      · split <;> exact Expr.consistent_analyzeArgs h ctx
  | expression e | ret keyword e | delete keyword e =>
    rintro _ (_ | ⟨_, ⟨⟩⟩)
    exact Expr.consistent_analyze (h e (.head _)) ctx
  | jump kind keyword label | defaultLabel keyword => exact h
  | caseLabel keyword e =>
    have found : ∀ e' ∈ [(e.analyze ctx).expr], e'.Consistent := by
      rintro _ (_ | ⟨_, ⟨⟩⟩)
      exact Expr.consistent_analyze (h e (.head _)) ctx
    rw [analyze, analyzeCase]
    split
    · split <;> exact found
    · exact found
  | assert keyword exprs =>
    cases exprs with
    | nil => exact h
    | cons e es => exact Expr.consistent_analyzeWhileOk h ctx
  | log keyword exprs => exact Expr.consistent_analyzeWhileOk h ctx

/-- A rule is applied only if nothing is wrong with the expression, so that all its types have been
found. -/
theorem analyzeWith_asBuilt {e : Expr} (h : e.Consistent) (ctx : Context) (keyword : Token)
    (rule : Expr → Option Problem) :
    (analyzeWith e.asBuilt ctx keyword rule).2 = (analyzeWith e ctx keyword rule).2 := by
  obtain ⟨sameCtx, sameOk⟩ := Expr.analyze_asBuilt h ctx
  rw [analyzeWith, analyzeWith]
  dsimp only
  rw [sameCtx, sameOk]
  cases ok : (e.analyze ctx).ok with
  | false => rfl
  | true =>
    rw [Expr.analyze_eq_typed e.consistent_asBuilt (sameOk.trans ok), Expr.typed_asBuilt,
      Expr.analyze_eq_typed h ok]

/-- Several expressions are checked as they would be as built. -/
theorem analyzeAllWith_asBuilt {es : List Expr} (h : ∀ e ∈ es, e.Consistent) (ctx : Context)
    (keyword : Token) (rule : List Expr → Option Problem) :
    (analyzeAllWith (es.map Expr.asBuilt) ctx keyword rule).2
      = (analyzeAllWith es ctx keyword rule).2 := by
  have same := Expr.analyzeWhileOk_asBuilt h ctx
  have consistent : ∀ e ∈ es.map Expr.asBuilt, e.Consistent := by
    simp [Expr.consistent_asBuilt]
  rw [analyzeAllWith, analyzeAllWith]
  dsimp only
  rw [same]
  cases ok : (Expr.analyzeWhileOk es ctx).2.2 with
  | false => rfl
  | true =>
    rw [Expr.analyzeWhileOk_eq_typed consistent (by rw [same, ok]),
      Expr.analyzeWhileOk_eq_typed h ok, List.map_map, Expr.typed_comp_asBuilt]

/-- An invocation is analyzed as it would be as built, whatever it was found to mean before. -/
theorem analyzeConstruct_asBuilt {args : List Expr} (h : ∀ e ∈ args, e.Consistent)
    (target : QualifiedName) (resolution resolution' : Option Resolution) (ctx : Context) :
    (analyzeConstruct target (args.map Expr.asBuilt) resolution' ctx).2
      = (analyzeConstruct target args resolution ctx).2 := by
  rw [analyzeConstruct, analyzeConstruct]
  split
  · rfl
  · dsimp only
    rw [Expr.analyzeArgs_asBuilt h]
    split
    · rfl
    · split <;> rfl

/-- The analysis of a consistent statement does what that of the statement as it was built does. -/
theorem analyze_asBuilt {s : Simple} (h : s.Consistent) (ctx : Context) :
    (s.asBuilt.analyze ctx).ctx = (s.analyze ctx).ctx ∧
      (s.asBuilt.analyze ctx).fault = (s.analyze ctx).fault := by
  cases s with
  | construct target args resolution =>
    -- What the invocation was found to mean before is never looked at.
    exact ⟨analyzeConstruct_asBuilt h target resolution none ctx, rfl⟩
  | expression e => exact ⟨(Expr.analyze_asBuilt (h e (.head _)) ctx).1, rfl⟩
  | ret keyword e | delete keyword e =>
    refine ⟨?_, rfl⟩
    rw [asBuilt, analyze, analyze, Outcome.ctx_done, Outcome.ctx_done]
    exact analyzeWith_asBuilt (h e (.head _)) ctx keyword _
  | jump kind keyword label | defaultLabel keyword => exact ⟨rfl, rfl⟩
  | caseLabel keyword e =>
    have consistent := h e (.head _)
    obtain ⟨sameCtx, sameOk⟩ := Expr.analyze_asBuilt consistent ctx
    rw [asBuilt, analyze, analyze, analyzeCase, analyzeCase, sameCtx, sameOk]
    cases ok : (e.analyze ctx).ok with
    | false => exact ⟨rfl, rfl⟩
    | true =>
      -- The type of the case is read only here, where the analysis has just found it.
      rw [Expr.analyze_eq_typed e.consistent_asBuilt (sameOk.trans ok), Expr.typed_asBuilt,
        Expr.analyze_eq_typed consistent ok]
      cases (e.analyze ctx).ctx.stack.top.owner.subject? <;> exact ⟨rfl, rfl⟩
  | assert keyword exprs =>
    cases exprs with
    | nil => exact ⟨rfl, rfl⟩
    | cons e es =>
      refine ⟨?_, rfl⟩
      rw [asBuilt, List.map_cons, analyze, analyze, ← List.map_cons, Outcome.ctx_done,
        Outcome.ctx_done]
      exact analyzeAllWith_asBuilt h ctx keyword _
  | log keyword exprs =>
    refine ⟨?_, rfl⟩
    rw [asBuilt, analyze, analyze, Outcome.ctx_done, Outcome.ctx_done]
    exact analyzeAllWith_asBuilt h ctx keyword _

end Simple

namespace Header

/-- The header as it was built, with nothing found about it. -/
def asBuilt : Header → Header
  | doWhile cond => doWhile cond.asBuilt
  | forIn loopVariable operand => forIn loopVariable operand.asBuilt
  | forLoop start cond step =>
    forLoop (start.map Expr.asBuilt) (cond.map Expr.asBuilt) (step.map Expr.asBuilt)
  | whileLoop cond => whileLoop cond.asBuilt
  | switch subject => switch subject.asBuilt

/-- The types that have been found are the static types. -/
def Consistent (header : Header) : Prop :=
  ∀ e ∈ header.exprs, e.Consistent

@[simp] theorem asBuilt_asBuilt (header : Header) : header.asBuilt.asBuilt = header.asBuilt := by
  cases header <;> simp [asBuilt]

@[simp] theorem name_asBuilt (header : Header) : header.asBuilt.name = header.name := by
  cases header <;> rfl

@[simp] theorem forms_asBuilt (header : Header) : header.asBuilt.forms = header.forms := by
  cases header <;> simp [asBuilt, forms, Expr.formOptional, Function.comp_def]

/-- Nothing is known of a header as built that could be wrong. -/
theorem consistent_asBuilt (header : Header) : header.asBuilt.Consistent := by
  cases header with
  | forLoop start cond step =>
    cases start <;> cases cond <;> cases step <;>
      simp [asBuilt, Consistent, exprs, Expr.consistent_asBuilt]
  | _ => simp [asBuilt, Consistent, exprs, Expr.consistent_asBuilt]

/-- An analysis changes nothing in a header but what is known of its expressions. -/
theorem asBuilt_analyze (keyword : Token) (header : Header) (ctx : Context) :
    (header.analyze keyword ctx).header.asBuilt = header.asBuilt := by
  cases header <;> simp [analyze, asBuilt]

/-- A for loop is consistent just if each of its three expressions is, as far as it is there. -/
theorem consistent_forLoop_iff {start cond step : Option Expr} :
    (forLoop start cond step).Consistent ↔ (∀ e ∈ start, e.Consistent) ∧
      (∀ e ∈ cond, e.Consistent) ∧ ∀ e ∈ step, e.Consistent := by
  simp [Consistent, exprs, or_imp, forall_and]

/-- What an analysis finds out of a consistent header is consistent. -/
theorem consistent_analyze {header : Header} (h : header.Consistent) (keyword : Token)
    (ctx : Context) : (header.analyze keyword ctx).header.Consistent := by
  cases header with
  | doWhile e | forIn loopVariable e | whileLoop e | switch e =>
    rintro _ (_ | ⟨_, ⟨⟩⟩)
    exact Expr.consistent_analyze (h e (.head _)) ctx
  | forLoop start cond step =>
    obtain ⟨hStart, hCond, hStep⟩ := consistent_forLoop_iff.mp h
    exact consistent_forLoop_iff.mpr ⟨Expr.consistent_analyzeOptional hStart _,
      Expr.consistent_analyzeOptional hCond _, Expr.consistent_analyzeOptional hStep _⟩

/-- A header is analyzed as it would be as built, and the loop or switch that it opens is the same.
-/
theorem analyze_asBuilt {header : Header} (h : header.Consistent) (keyword : Token)
    (ctx : Context) : (header.asBuilt.analyze keyword ctx).ctx = (header.analyze keyword ctx).ctx ∧
      (header.asBuilt.analyze keyword ctx).kind = (header.analyze keyword ctx).kind := by
  cases header with
  | doWhile e | forIn loopVariable e | whileLoop e =>
    exact ⟨(Expr.analyze_asBuilt (h e (.head _)) ctx).1, rfl⟩
  | forLoop start cond step =>
    obtain ⟨hStart, hCond, hStep⟩ := consistent_forLoop_iff.mp h
    refine ⟨?_, rfl⟩
    simp only [asBuilt, analyze]
    rw [Expr.analyzeOptional_asBuilt hStart, Expr.analyzeOptional_asBuilt hCond,
      Expr.analyzeOptional_asBuilt hStep]
  | switch subject =>
    have consistent := h subject (.head _)
    obtain ⟨sameCtx, sameOk⟩ := Expr.analyze_asBuilt consistent ctx
    simp only [asBuilt, analyze]
    rw [sameCtx, sameOk]
    cases ok : (subject.analyze ctx).ok with
    | false => exact ⟨rfl, rfl⟩
    | true =>
      -- The type of the subject is read only if nothing is wrong with the subject.
      rw [Expr.analyze_eq_typed subject.consistent_asBuilt (sameOk.trans ok), Expr.typed_asBuilt,
        Expr.analyze_eq_typed consistent ok]
      exact ⟨rfl, rfl⟩

end Header

/-! ## Outcomes -/

namespace Outcome

variable {α β γ δ : Type}

/-- Outcomes agree under a map if their nodes do and they have the same context and fault. -/
theorem map_eq_map {f : α → β} {a b : Outcome α} (node : f a.node = f b.node) (ctx : a.ctx = b.ctx)
    (fault : a.fault = b.fault) : a.map f = b.map f := by
  rw [map, map, node, ctx, fault]

/-- Outcomes that agree under a map of their nodes have the same context and fault. -/
theorem agree_of_map_eq_map {f : α → β} {a b : Outcome α} (h : a.map f = b.map f) :
    a.ctx = b.ctx ∧ a.fault = b.fault :=
  ⟨congrArg (·.ctx) h, congrArg (·.fault) h⟩

/-- Both nodes of a sequence may be mapped before it is put together. -/
theorem map_andThen (outcome : Outcome α) (following : β) (analyze : Context → Outcome β)
    (f : α → γ) (g : β → δ) :
    (outcome.andThen following analyze).map (Prod.map f g)
      = (outcome.map f).andThen (g following) fun ctx => (analyze ctx).map g := by
  obtain ⟨node, ctx, _ | fault⟩ := outcome <;> rfl

@[simp] theorem node_map (f : α → β) (outcome : Outcome α) :
    (outcome.map f).node = f outcome.node := rfl

@[simp] theorem node_passing (outcome : Outcome Stmt) : outcome.passing.node = outcome.node := by
  obtain ⟨node, ctx, _ | fault⟩ := outcome <;> rfl

@[simp] theorem node_within (ctx : Context) (owner : Owner) (analyze : Context → Outcome α) :
    (ctx.within owner analyze).node = (analyze (ctx.enter owner)).node := rfl

/-- The first node of a sequence is that of what comes first, also behind a fault. -/
@[simp] theorem fst_node_andThen (outcome : Outcome α) (following : β)
    (analyze : Context → Outcome β) :
    (outcome.andThen following analyze).node.1 = outcome.node := by
  obtain ⟨node, ctx, _ | fault⟩ := outcome <;> rfl

/-- What follows is either analyzed or left as it is. -/
theorem snd_node_andThen {outcome : Outcome α} {following : β} {analyze : Context → Outcome β}
    {p : β → Prop} (left : p following) (analyzed : ∀ ctx, p (analyze ctx).node) :
    p (outcome.andThen following analyze).node.2 := by
  obtain ⟨node, ctx, _ | fault⟩ := outcome
  · exact analyzed ctx
  · exact left

/-- What no analysis changes in the second node is not changed, whether it is analyzed or not. -/
theorem map_snd_node_andThen {outcome : Outcome α} {following : β} {analyze : Context → Outcome β}
    {f : β → γ} (h : ∀ ctx, f (analyze ctx).node = f following) :
    f (outcome.andThen following analyze).node.2 = f following :=
  snd_node_andThen (p := fun node => f node = f following) rfl h

/-- What stands in a block may be mapped inside of it. -/
theorem map_within (ctx : Context) (owner : Owner) (analyze : Context → Outcome α) (f : α → β) :
    (ctx.within owner analyze).map f = ctx.within owner fun ctx => (analyze ctx).map f := rfl

/-- Analyses that agree under a map agree in a block as well. -/
theorem map_within_congr {f : α → β} {analyze analyze' : Context → Outcome α}
    (h : ∀ ctx, (analyze ctx).map f = (analyze' ctx).map f) (owner : Owner) (ctx : Context) :
    (ctx.within owner analyze).map f = (ctx.within owner analyze').map f := by
  rw [map_within, map_within, funext h]

end Outcome

/-! ## Statements -/

namespace Stmt

mutual

/-- The statement as it was built, with nothing found about it. -/
def asBuilt : Stmt → Stmt
  | simple s => simple s.asBuilt
  | breakable keyword label header body =>
    breakable keyword label header.asBuilt (asBuiltList body)
  | ifElse keyword cond onTrue onFalse =>
    ifElse keyword cond.asBuilt (asBuiltList onTrue) (asBuiltList onFalse)
  | guarded keyword body caught handler finalizer =>
    guarded keyword (asBuiltList body) caught (asBuiltPart handler) (asBuiltPart finalizer)

/-- The statements of a list as they were built. -/
def asBuiltList : List Stmt → List Stmt
  | [] => []
  | s :: rest => s.asBuilt :: asBuiltList rest

/-- A list that may be absent, as it was built. -/
def asBuiltPart : Option (List Stmt) → Option (List Stmt)
  | none => none
  | some body => some (asBuiltList body)

end

mutual

/-- The types that have been found in a statement are the static types. -/
def Consistent : Stmt → Prop
  | simple s => s.Consistent
  | breakable _ _ header body => header.Consistent ∧ ConsistentList body
  | ifElse _ cond onTrue onFalse =>
    cond.Consistent ∧ ConsistentList onTrue ∧ ConsistentList onFalse
  | guarded _ body _ handler finalizer =>
    ConsistentList body ∧ ConsistentPart handler ∧ ConsistentPart finalizer

/-- The types that have been found in a list are the static types. -/
def ConsistentList : List Stmt → Prop
  | [] => True
  | s :: rest => s.Consistent ∧ ConsistentList rest

/-- The types that have been found in a list that may be absent are the static types. -/
def ConsistentPart : Option (List Stmt) → Prop
  | none => True
  | some body => ConsistentList body

end

/-- A list is taken back to how it was built statement by statement. -/
theorem asBuiltList_eq_map (body : List Stmt) : asBuiltList body = body.map asBuilt := by
  induction body with
  | nil => rfl
  | cons s rest ih => rw [asBuiltList, ih, List.map_cons]

/-- A list is consistent just if its statements are. -/
theorem consistentList_iff (body : List Stmt) : ConsistentList body ↔ ∀ s ∈ body, s.Consistent := by
  induction body with
  | nil => simp [ConsistentList]
  | cons s rest ih => rw [ConsistentList, ih, List.forall_mem_cons]

mutual

/-- What is as built stays so. -/
@[simp] theorem asBuilt_asBuilt : (s : Stmt) → s.asBuilt.asBuilt = s.asBuilt
  | simple s => by rw [asBuilt, asBuilt, s.asBuilt_asBuilt]
  | breakable _ _ header body => by
    rw [asBuilt, asBuilt, header.asBuilt_asBuilt, asBuiltList_asBuiltList body]
  | ifElse _ cond onTrue onFalse => by
    rw [asBuilt, asBuilt, cond.asBuilt_asBuilt, asBuiltList_asBuiltList onTrue,
      asBuiltList_asBuiltList onFalse]
  | guarded _ body _ handler finalizer => by
    rw [asBuilt, asBuilt, asBuiltList_asBuiltList body, asBuiltPart_asBuiltPart handler,
      asBuiltPart_asBuiltPart finalizer]

@[simp] theorem asBuiltList_asBuiltList : (body : List Stmt) →
    asBuiltList (asBuiltList body) = asBuiltList body
  | [] => rfl
  | s :: rest => by
    rw [asBuiltList, asBuiltList, asBuilt_asBuilt s, asBuiltList_asBuiltList rest]

@[simp] theorem asBuiltPart_asBuiltPart : (part : Option (List Stmt)) →
    asBuiltPart (asBuiltPart part) = asBuiltPart part
  | none => rfl
  | some body => by rw [asBuiltPart, asBuiltPart, asBuiltList_asBuiltList body]

end

mutual

/-- What has been found is no part of the form. -/
@[simp] theorem form_asBuilt : (s : Stmt) → s.asBuilt.form = s.form
  | simple s => s.form_asBuilt
  | breakable _ _ header body => by
    rw [asBuilt, form, form, header.name_asBuilt, header.forms_asBuilt,
      formsOfList_asBuiltList body]
  | ifElse _ cond onTrue onFalse => by
    rw [asBuilt, form, form, cond.form_asBuilt, formsOfList_asBuiltList onTrue,
      formsOfList_asBuiltList onFalse]
  | guarded _ body _ handler finalizer => by
    rw [asBuilt, form, form, formsOfList_asBuiltList body, formOfPart_asBuiltPart handler,
      formOfPart_asBuiltPart finalizer]

@[simp] theorem formsOfList_asBuiltList : (body : List Stmt) →
    formsOfList (asBuiltList body) = formsOfList body
  | [] => rfl
  | s :: rest => by
    rw [asBuiltList, formsOfList, formsOfList, form_asBuilt s, formsOfList_asBuiltList rest]

@[simp] theorem formOfPart_asBuiltPart : (part : Option (List Stmt)) →
    formOfPart (asBuiltPart part) = formOfPart part
  | none => rfl
  | some body => by rw [asBuiltPart, formOfPart, formOfPart, formsOfList_asBuiltList body]

end

mutual

/-- Nothing is known in a statement as built that could be wrong. -/
theorem consistent_asBuilt : (s : Stmt) → s.asBuilt.Consistent
  | simple s => s.consistent_asBuilt
  | breakable _ _ header body => ⟨header.consistent_asBuilt, consistentList_asBuiltList body⟩
  | ifElse _ cond onTrue onFalse =>
    ⟨cond.consistent_asBuilt, consistentList_asBuiltList onTrue, consistentList_asBuiltList onFalse⟩
  | guarded _ body _ handler finalizer =>
    ⟨consistentList_asBuiltList body, consistentPart_asBuiltPart handler,
      consistentPart_asBuiltPart finalizer⟩

theorem consistentList_asBuiltList : (body : List Stmt) → ConsistentList (asBuiltList body)
  | [] => trivial
  | s :: rest => ⟨consistent_asBuilt s, consistentList_asBuiltList rest⟩

theorem consistentPart_asBuiltPart : (part : Option (List Stmt)) →
    ConsistentPart (asBuiltPart part)
  | none => trivial
  | some body => consistentList_asBuiltList body

end

@[simp] theorem name_asBuilt (s : Stmt) : s.asBuilt.name = s.name := by
  cases s with
  | simple s => exact s.name_asBuilt
  | breakable keyword label header body => exact header.name_asBuilt
  | ifElse | guarded => rfl

@[simp] theorem token_asBuilt (s : Stmt) : s.asBuilt.token = s.token := by
  cases s with
  | simple s => exact s.token_asBuilt
  | breakable | ifElse | guarded => rfl

/-! ### Analysis -/

mutual

/-- An analysis changes nothing in a statement but what is known in it. -/
theorem asBuilt_analyze : (s : Stmt) → (ctx : Context) → (s.analyze ctx).node.asBuilt = s.asBuilt
  | simple s, ctx => by
    rw [analyze, Outcome.node_passing]
    exact congrArg simple (s.asBuilt_analyze ctx)
  | breakable keyword label header body, ctx => by
    rw [analyze, Outcome.node_passing, Outcome.node_map, asBuilt, asBuilt, Header.asBuilt_analyze,
      Outcome.node_within, asBuiltList_analyzeList body]
  | ifElse keyword cond onTrue onFalse, ctx => by
    have kept (ctx : Context) : asBuiltList (ctx.within .branch (analyzeList onFalse)).node
        = asBuiltList onFalse := asBuiltList_analyzeList onFalse _
    rw [analyze, Outcome.node_passing, Outcome.node_map, asBuilt, asBuilt, Expr.asBuilt_analyze,
      Outcome.fst_node_andThen, Outcome.node_within, asBuiltList_analyzeList onTrue,
      Outcome.map_snd_node_andThen kept]
  | guarded keyword body caught handler finalizer, ctx => by
    rw [analyze, Outcome.node_passing, Outcome.node_map, asBuilt, asBuilt,
      Outcome.fst_node_andThen, Outcome.fst_node_andThen, Outcome.node_within,
      asBuiltList_analyzeList body,
      Outcome.map_snd_node_andThen (asBuiltPart_analyzePart handler),
      Outcome.map_snd_node_andThen (asBuiltPart_analyzePart finalizer)]

/-- The analysis of a list changes nothing but what is known in it, also if it ends in a fault. -/
theorem asBuiltList_analyzeList : (body : List Stmt) → (ctx : Context) →
    asBuiltList (analyzeList body ctx).node = asBuiltList body
  | [], ctx => rfl
  | s :: rest, ctx => by
    rw [analyzeList, Outcome.node_map, asBuiltList, asBuiltList, Outcome.fst_node_andThen,
      asBuilt_analyze s, Outcome.map_snd_node_andThen (asBuiltList_analyzeList rest)]

theorem asBuiltPart_analyzePart : (part : Option (List Stmt)) → (ctx : Context) →
    asBuiltPart (analyzePart part ctx).node = asBuiltPart part
  | none, ctx => rfl
  | some body, ctx => by
    rw [analyzePart, Outcome.node_map, asBuiltPart, asBuiltPart, Outcome.node_within,
      asBuiltList_analyzeList body]

end

mutual

/-- Analysis keeps a statement consistent, also if it finds something wrong or ends in a fault. -/
theorem consistent_analyze : (s : Stmt) → s.Consistent → (ctx : Context) →
    (s.analyze ctx).node.Consistent
  | simple s, h, ctx => by
    rw [analyze, Outcome.node_passing]
    exact Simple.consistent_analyze h ctx
  | breakable keyword label header body, h, ctx => by
    rw [analyze, Outcome.node_passing]
    exact ⟨Header.consistent_analyze h.1 keyword ctx, consistentList_analyzeList body h.2 _⟩
  | ifElse keyword cond onTrue onFalse, h, ctx => by
    obtain ⟨hCond, hTrue, hFalse⟩ := h
    rw [analyze, Outcome.node_passing]
    refine ⟨Expr.consistent_analyze hCond ctx, ?_, ?_⟩
    · rw [Outcome.fst_node_andThen]
      exact consistentList_analyzeList onTrue hTrue _
    · exact Outcome.snd_node_andThen hFalse fun ctx => consistentList_analyzeList onFalse hFalse _
  | guarded keyword body caught handler finalizer, h, ctx => by
    obtain ⟨hBody, hHandler, hFinalizer⟩ := h
    rw [analyze, Outcome.node_passing]
    refine ⟨?_, ?_, ?_⟩
    · rw [Outcome.fst_node_andThen, Outcome.fst_node_andThen]
      exact consistentList_analyzeList body hBody _
    · rw [Outcome.fst_node_andThen]
      exact Outcome.snd_node_andThen hHandler (consistentPart_analyzePart handler hHandler)
    · exact Outcome.snd_node_andThen hFinalizer (consistentPart_analyzePart finalizer hFinalizer)

/-- What the analysis of a consistent list finds out is consistent. -/
theorem consistentList_analyzeList : (body : List Stmt) → ConsistentList body → (ctx : Context) →
    ConsistentList (analyzeList body ctx).node
  | [], h, ctx => h
  | s :: rest, h, ctx => by
    rw [analyzeList]
    refine ⟨?_, ?_⟩
    · rw [Outcome.fst_node_andThen]
      exact consistent_analyze s h.1 ctx
    · exact Outcome.snd_node_andThen h.2 (consistentList_analyzeList rest h.2)

theorem consistentPart_analyzePart : (part : Option (List Stmt)) → ConsistentPart part →
    (ctx : Context) → ConsistentPart (analyzePart part ctx).node
  | none, h, ctx => h
  | some body, h, ctx => by
    rw [analyzePart]
    exact consistentList_analyzeList body h _

end

/-- A fault is told with the name and the token of its statement, and these are as built. -/
theorem map_asBuilt_passing (outcome : Outcome Stmt) :
    outcome.passing.map asBuilt = (outcome.map asBuilt).passing := by
  obtain ⟨node, ctx, _ | fault⟩ := outcome
  · rfl
  · simp [Outcome.passing, Outcome.map]

mutual

/-- The analysis of a consistent statement does what that of the statement as it was built does. -/
theorem analyze_asBuilt : (s : Stmt) → s.Consistent → (ctx : Context) →
    (s.asBuilt.analyze ctx).map asBuilt = (s.analyze ctx).map asBuilt
  | simple s, h, ctx => by
    obtain ⟨sameCtx, sameFault⟩ := Simple.analyze_asBuilt h ctx
    have sameNode : (s.asBuilt.analyze ctx).node.asBuilt = (s.analyze ctx).node.asBuilt := by
      rw [Simple.asBuilt_analyze, Simple.asBuilt_analyze, Simple.asBuilt_asBuilt]
    have same : (s.asBuilt.analyze ctx).map Simple.asBuilt = (s.analyze ctx).map Simple.asBuilt :=
      Outcome.map_eq_map sameNode sameCtx sameFault
    rw [asBuilt, analyze, analyze, map_asBuilt_passing, map_asBuilt_passing]
    exact congrArg (fun outcome => (outcome.map simple).passing) same
  | breakable keyword label header body, h, ctx => by
    obtain ⟨sameCtx, sameKind⟩ := Header.analyze_asBuilt h.1 keyword ctx
    have sameBody := Outcome.map_within_congr (analyzeList_asBuiltList body h.2)
    -- The operations on outcomes commute with the map, so it can be moved to the body.
    have inside (header : Header) (body : List Stmt) :
        ((breakable keyword label header body).analyze ctx).map asBuilt
          = ((((header.analyze keyword ctx).ctx.within
              (.breakable (header.analyze keyword ctx).kind label) (analyzeList body)).map
                asBuiltList).map
                  (breakable keyword label (header.analyze keyword ctx).header.asBuilt)).passing := by
      rw [analyze, map_asBuilt_passing]
      rfl
    rw [asBuilt, inside, inside, sameCtx, sameKind, sameBody, Header.asBuilt_analyze,
      Header.asBuilt_analyze, Header.asBuilt_asBuilt]
  | ifElse keyword cond onTrue onFalse, h, ctx => by
    obtain ⟨hCond, hTrue, hFalse⟩ := h
    have sameCtx := (Expr.analyze_asBuilt hCond ctx).1
    have sameTrue := Outcome.map_within_congr (analyzeList_asBuiltList onTrue hTrue)
    have sameFalse :=
      funext (Outcome.map_within_congr (analyzeList_asBuiltList onFalse hFalse) .branch)
    have inside (cond : Expr) (onTrue onFalse : List Stmt) :
        ((ifElse keyword cond onTrue onFalse).analyze ctx).map asBuilt
          = (((((cond.analyze ctx).ctx.within .branch (analyzeList onTrue)).map
              asBuiltList).andThen (asBuiltList onFalse)
                fun ctx => (ctx.within .branch (analyzeList onFalse)).map asBuiltList).map fun arms =>
                  ifElse keyword (cond.analyze ctx).expr.asBuilt arms.1 arms.2).passing := by
      rw [analyze, map_asBuilt_passing, ← Outcome.map_andThen]
      rfl
    rw [asBuilt, inside, inside, sameCtx, sameTrue, sameFalse, Expr.asBuilt_analyze,
      Expr.asBuilt_analyze, Expr.asBuilt_asBuilt, asBuiltList_asBuiltList]
  | guarded keyword body caught handler finalizer, h, ctx => by
    obtain ⟨hBody, hHandler, hFinalizer⟩ := h
    have sameBody := Outcome.map_within_congr (analyzeList_asBuiltList body hBody)
    have sameHandler := funext (analyzePart_asBuiltPart handler hHandler)
    have sameFinalizer := funext (analyzePart_asBuiltPart finalizer hFinalizer)
    have inside (body : List Stmt) (handler finalizer : Option (List Stmt)) :
        ((guarded keyword body caught handler finalizer).analyze ctx).map asBuilt
          = (((((ctx.within .guarded (analyzeList body)).map asBuiltList).andThen
              (asBuiltPart handler) fun ctx => (analyzePart handler ctx).map asBuiltPart).andThen
                (asBuiltPart finalizer) fun ctx => (analyzePart finalizer ctx).map asBuiltPart).map
                  fun parts => guarded keyword parts.1.1 caught parts.1.2 parts.2).passing := by
      rw [analyze, map_asBuilt_passing, ← Outcome.map_andThen, ← Outcome.map_andThen]
      rfl
    rw [asBuilt, inside, inside, sameBody, sameHandler, sameFinalizer, asBuiltPart_asBuiltPart,
      asBuiltPart_asBuiltPart]

/-- A consistent list is analyzed as it would be as built. -/
theorem analyzeList_asBuiltList : (body : List Stmt) → ConsistentList body → (ctx : Context) →
    (analyzeList (asBuiltList body) ctx).map asBuiltList = (analyzeList body ctx).map asBuiltList
  | [], h, ctx => rfl
  | s :: rest, h, ctx => by
    have sameRest := funext (analyzeList_asBuiltList rest h.2)
    have inside (s : Stmt) (rest : List Stmt) :
        (analyzeList (s :: rest) ctx).map asBuiltList
          = (((s.analyze ctx).map asBuilt).andThen (asBuiltList rest)
              fun ctx => (analyzeList rest ctx).map asBuiltList).map
                fun parts => parts.1 :: parts.2 := by
      rw [analyzeList, ← Outcome.map_andThen]
      rfl
    rw [asBuiltList, inside, inside, analyze_asBuilt s h.1, sameRest, asBuiltList_asBuiltList]

theorem analyzePart_asBuiltPart : (part : Option (List Stmt)) → ConsistentPart part →
    (ctx : Context) →
    (analyzePart (asBuiltPart part) ctx).map asBuiltPart = (analyzePart part ctx).map asBuiltPart
  | none, h, ctx => rfl
  | some body, h, ctx => by
    have same := Outcome.map_within_congr (analyzeList_asBuiltList body h) .guarded ctx
    rw [asBuiltPart, analyzePart, analyzePart]
    exact congrArg (·.map some) same

end

end Stmt

end BodyCheck
