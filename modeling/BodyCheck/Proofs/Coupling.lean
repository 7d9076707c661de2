import BodyCheck.Proofs.AsBuilt
import BodyCheck.Proofs.Faults

/-!
# Coupled runs

Two runs over the same tree do alike as long as what they look at in their contexts is alike.  What
an analysis looks at besides the locals is little, and only simple statements look at it: the class
of a name, the return type, the owners of the open lists and the subject of a switch.

## Main definitions

* `Context.Coupling` — a relation between two contexts that lasts while both runs do alike.
* `Outcome.Coupled` — two runs have done alike.
* `Simple.SeesSame` — what a simple statement looks at is the same in both contexts.
* `Stmt.DoAlike` — the simple statements of a tree do alike in coupled contexts.

## Main statements

* `Expr.analyze_coupled`, `Header.analyze_coupled` — expressions and headers look at the locals
  only.
* `Simple.analyze_coupled` — a simple statement does alike where it sees the same.
* `Stmt.analyzeList_coupled` — so does a whole list.

## Design notes

The relation between the contexts is left open, as is the way in which simple statements are seen
to do alike.  Only cases look at the innermost block, so in the list at hand they need a condition
that a relation between the stacks below need not give; in the lists inside it the innermost
blocks are the same.
-/

namespace BodyCheck

/-! ## Relations between contexts -/

/-- A relation between the contexts of two runs that lasts while both do alike, whatever is told. -/
structure Context.Coupling (R : Context → Context → Prop) : Prop where
  locals {a b : Context} (h : R a b) : a.locals = b.locals
  setLocals {a b : Context} (h : R a b) (locals : Locals) :
    R (a.setLocals locals) (b.setLocals locals)
  report {a b : Context} (h : R a b) (problem : Problem) (token : Token) :
    R (a.report problem token) (b.report problem token)
  tell {a b : Context} (h : R a b) (event event' : Event) : R (a.tell event) (b.tell event')
  enter {a b : Context} (h : R a b) (owner : Owner) : R (a.enter owner) (b.enter owner)
  leave {a b a' b' : Context} {owner : Owner} (h : R a b) (inside : R a' b')
    (left : (a.enter owner).Extends a') (right : (b.enter owner).Extends b') : R a'.leave b'.leave

/-- Coupled contexts stay coupled if the same problem is reported in both, or none in either. -/
theorem Context.Coupling.reportAny {R : Context → Context → Prop} (coupling : Coupling R)
    {a b : Context} (h : R a b) (problem : Option Problem) (token : Token) :
    R (a.reportAny problem token) (b.reportAny problem token) := by
  cases problem with
  | none => exact h
  | some problem => exact coupling.report h problem token

section Coupled

variable {R : Context → Context → Prop} {a b : Context}

/-! ## Expressions -/

namespace Expr

/-- Two analyses of an expression have done alike. -/
structure Checked.Coupled (R : Context → Context → Prop) (x y : Checked) : Prop where
  expr : x.expr = y.expr
  ok : x.ok = y.ok
  ctx : R x.ctx y.ctx

variable (coupling : Context.Coupling R)

include coupling

/-- An expression looks at the locals only. -/
theorem analyze_coupled (e : Expr) (h : R a b) : Checked.Coupled R (e.analyze a) (e.analyze b) := by
  induction e generalizing a b with
  | value token content known =>
    cases content with
    | failing message => exact ⟨rfl, rfl, coupling.report h ..⟩
    | typed ty | untyped => exact ⟨rfl, rfl, h⟩
  | read token declared known =>
    rw [analyze, analyze, coupling.locals h]
    split
    · exact ⟨rfl, rfl, h⟩
    · exact ⟨rfl, rfl, coupling.report h ..⟩
    · exact ⟨rfl, rfl, coupling.report h ..⟩
  | assign token source known ih =>
    obtain ⟨expr, ok, ctx⟩ := ih h
    simp only [analyze, expr, ok, coupling.locals ctx]
    split
    · split
      · exact ⟨rfl, rfl, coupling.setLocals ctx _⟩
      · exact ⟨rfl, rfl, coupling.report ctx ..⟩
    · exact ⟨rfl, rfl, ctx⟩
  | index token base key known ihBase ihKey =>
    obtain ⟨expr, ok, ctx⟩ := ihBase h
    obtain ⟨exprKey, okKey, ctxKey⟩ := ihKey ctx
    simp only [analyze, expr, ok, exprKey, okKey]
    split
    · split
      · split
        · exact ⟨rfl, rfl, ctxKey⟩
        · split
          · exact ⟨rfl, rfl, ctxKey⟩
          · exact ⟨rfl, rfl, coupling.report ctxKey ..⟩
      · exact ⟨rfl, rfl, ctxKey⟩
    · exact ⟨rfl, rfl, ctx⟩

/-- An expression that may be absent comes out the same in coupled contexts. -/
theorem analyzeOptional_coupled (e : Option Expr) (h : R a b) :
    (analyzeOptional e a).1 = (analyzeOptional e b).1 ∧
      R (analyzeOptional e a).2 (analyzeOptional e b).2 := by
  cases e with
  | none => exact ⟨rfl, h⟩
  | some e =>
    obtain ⟨expr, -, ctx⟩ := e.analyze_coupled coupling h
    exact ⟨congrArg some expr, ctx⟩

theorem analyzeWhileOk_coupled (es : List Expr) (h : R a b) :
    (analyzeWhileOk es a).1 = (analyzeWhileOk es b).1 ∧
      (analyzeWhileOk es a).2.2 = (analyzeWhileOk es b).2.2 ∧
      R (analyzeWhileOk es a).2.1 (analyzeWhileOk es b).2.1 := by
  induction es generalizing a b with
  | nil => exact ⟨rfl, rfl, h⟩
  | cons e es ih =>
    obtain ⟨expr, ok, ctx⟩ := e.analyze_coupled coupling h
    obtain ⟨exprs, oks, ctxs⟩ := ih ctx
    simp only [analyzeWhileOk, expr, ok]
    split
    · exact ⟨congrArg (_ :: ·) exprs, oks, ctxs⟩
    · exact ⟨rfl, rfl, ctx⟩

theorem analyzeArgs_coupled (es : List Expr) (h : R a b) :
    (analyzeArgs es a).1 = (analyzeArgs es b).1 ∧
      (analyzeArgs es a).2.2 = (analyzeArgs es b).2.2 ∧
      R (analyzeArgs es a).2.1 (analyzeArgs es b).2.1 := by
  induction es generalizing a b with
  | nil => exact ⟨rfl, rfl, h⟩
  | cons e es ih =>
    obtain ⟨expr, ok, ctx⟩ := e.analyze_coupled coupling h
    obtain ⟨exprs, tys, ctxs⟩ := ih ctx
    simp only [analyzeArgs, expr, ok]
    split
    · exact ⟨congrArg (_ :: ·) exprs, congrArg (Option.map _) tys, ctxs⟩
    · exact ⟨rfl, rfl, ctx⟩

end Expr

variable (coupling : Context.Coupling R)

include coupling

/-- A header looks at the locals only. -/
theorem Header.analyze_coupled (keyword : Token) (header : Header) (h : R a b) :
    (header.analyze keyword a).header = (header.analyze keyword b).header ∧
      (header.analyze keyword a).kind = (header.analyze keyword b).kind ∧
      R (header.analyze keyword a).ctx (header.analyze keyword b).ctx := by
  cases header with
  | doWhile e | forIn loopVariable e | whileLoop e =>
    obtain ⟨expr, -, ctx⟩ := e.analyze_coupled coupling h
    simp only [analyze, expr, true_and]
    exact ctx
  | forLoop start cond step =>
    obtain ⟨exprStart, ctxStart⟩ := Expr.analyzeOptional_coupled coupling start h
    obtain ⟨exprCond, ctxCond⟩ := Expr.analyzeOptional_coupled coupling cond ctxStart
    obtain ⟨exprStep, ctxStep⟩ := Expr.analyzeOptional_coupled coupling step ctxCond
    simp only [analyze, exprStart, exprCond, exprStep, true_and]
    exact ctxStep
  | switch subject =>
    obtain ⟨expr, ok, ctx⟩ := subject.analyze_coupled coupling h
    simp only [analyze, expr, ok, true_and]
    exact coupling.reportAny ctx ..

end Coupled

/-! ## Outcomes -/

/-- Two runs have done alike. -/
structure Outcome.Coupled {α : Type} (R : Context → Context → Prop) (x y : Outcome α) : Prop where
  node : x.node = y.node
  fault : x.fault = y.fault
  ctx : R x.ctx y.ctx

namespace Outcome.Coupled

variable {α β : Type} {R : Context → Context → Prop} {x y : Outcome α} {a b : Context}

theorem done (h : R a b) {node node' : α} (same : node = node') :
    Coupled R (.done node a) (.done node' b) :=
  ⟨same, rfl, h⟩

/-- What is made of the nodes is the same if the nodes are. -/
theorem map (h : Coupled R x y) (f : α → β) : Coupled R (x.map f) (y.map f) where
  node := congrArg f h.node
  fault := h.fault
  ctx := h.ctx

/-- After a fault on either side there is one on the other, and both leave out what follows. -/
theorem andThen (h : Coupled R x y) (following : β) {analyze : Context → Outcome β}
    (rest : R x.ctx y.ctx → Coupled R (analyze x.ctx) (analyze y.ctx)) :
    Coupled R (x.andThen following analyze) (y.andThen following analyze) := by
  obtain ⟨node, ctx, fault⟩ := x
  obtain ⟨node', ctx', fault'⟩ := y
  obtain ⟨sameNode, sameFault, coupled⟩ := h
  dsimp only at sameNode sameFault
  subst sameNode sameFault
  cases fault with
  | none => exact (rest coupled).map _
  | some fault => exact ⟨rfl, rfl, coupled⟩

variable (coupling : Context.Coupling R)

include coupling

/-- A fault passes a statement on both sides or on neither. -/
theorem passing {x y : Outcome Stmt} (h : Coupled R x y) : Coupled R x.passing y.passing := by
  obtain ⟨node, ctx, fault⟩ := x
  obtain ⟨node', ctx', fault'⟩ := y
  obtain ⟨sameNode, sameFault, coupled⟩ := h
  dsimp only at sameNode sameFault
  subst sameNode sameFault
  cases fault with
  | none => exact ⟨rfl, rfl, coupled⟩
  | some fault => exact ⟨rfl, rfl, coupling.tell coupled ..⟩

/-- In a block of the same owner both sides go on alike, and it is left on both. -/
theorem within {owner : Owner} {analyze : Context → Outcome α} (h : R a b)
    (grows : ∀ ctx : Context, ctx.Extends (analyze ctx).ctx)
    (inside : Coupled R (analyze (a.enter owner)) (analyze (b.enter owner))) :
    Coupled R (a.within owner analyze) (b.within owner analyze) where
  node := inside.node
  fault := inside.fault
  ctx := coupling.leave h inside.ctx (grows _) (grows _)

end Outcome.Coupled

/-! ## Simple statements -/

namespace Simple

/-- What the statement looks at, besides the locals, is the same in both contexts. -/
def SeesSame : Simple → Context → Context → Prop
  | construct target _ _, a, b => target.resolve a = target.resolve b
  | ret .., a, b => a.function.returns = b.function.returns
  | jump kind _ label, a, b =>
    a.stack.owners.any kind.mayLeave = b.stack.owners.any kind.mayLeave ∧
      ∀ name ∈ label, Rule.isLabelAround name.value a.stack.owners
        = Rule.isLabelAround name.value b.stack.owners
  | caseLabel .., a, b => a.stack.top.owner.subject? = b.stack.top.owner.subject?
  | _, _, _ => True

variable {R : Context → Context → Prop} (coupling : Context.Coupling R) {a b : Context}

include coupling

/-- A single expression and the rule behind it do alike. -/
theorem analyzeWith_coupled (e : Expr) (keyword : Token) (rule : Expr → Option Problem)
    (h : R a b) :
    (analyzeWith e a keyword rule).1 = (analyzeWith e b keyword rule).1 ∧
      R (analyzeWith e a keyword rule).2 (analyzeWith e b keyword rule).2 := by
  obtain ⟨expr, ok, ctx⟩ := e.analyze_coupled coupling h
  simp only [analyzeWith, expr, ok, true_and]
  split
  · exact coupling.reportAny ctx ..
  · exact ctx

theorem analyzeAllWith_coupled (es : List Expr) (keyword : Token)
    (rule : List Expr → Option Problem) (h : R a b) :
    (analyzeAllWith es a keyword rule).1 = (analyzeAllWith es b keyword rule).1 ∧
      R (analyzeAllWith es a keyword rule).2 (analyzeAllWith es b keyword rule).2 := by
  obtain ⟨exprs, ok, ctx⟩ := Expr.analyzeWhileOk_coupled coupling es h
  simp only [analyzeAllWith, exprs, ok, true_and]
  split
  · exact coupling.reportAny ctx ..
  · exact ctx

/-- An invocation does alike if its name means the same on both sides. -/
theorem analyzeConstruct_coupled (target : QualifiedName) (args : List Expr)
    (known : Option Resolution) (h : R a b) (same : target.resolve a = target.resolve b) :
    (analyzeConstruct target args known a).1 = (analyzeConstruct target args known b).1 ∧
      R (analyzeConstruct target args known a).2 (analyzeConstruct target args known b).2 := by
  obtain ⟨exprs, tys, ctx⟩ := Expr.analyzeArgs_coupled coupling args h
  simp only [analyzeConstruct, same, exprs, tys]
  split
  · exact ⟨rfl, coupling.report h ..⟩
  · split
    · exact ⟨rfl, ctx⟩
    · split
      · exact ⟨rfl, ctx⟩
      · exact ⟨rfl, coupling.report ctx ..⟩

/-- A jump does alike if the open blocks admit it on both sides or on neither, and so for its label.
-/
theorem analyzeJump_coupled (kind : JumpKind) (keyword : Token) (label : Option Token) (h : R a b)
    (same : (jump kind keyword label).SeesSame a b) :
    R (analyzeJump kind keyword label a) (analyzeJump kind keyword label b) := by
  obtain ⟨sameKind, sameLabel⟩ := same
  simp only [analyzeJump, Rule.jump?, Rule.label?, sameKind]
  split
  · exact coupling.report h ..
  · exact h
  · next name _ =>
    rw [sameLabel name rfl]
    exact coupling.reportAny (coupling.tell h ..) ..

/-- A case does alike if both innermost blocks have the same subject. -/
theorem analyzeCase_coupled (keyword : Token) (e : Expr) (h : R a b)
    (same : a.stack.top.owner.subject? = b.stack.top.owner.subject?) :
    Outcome.Coupled R (analyzeCase keyword e a) (analyzeCase keyword e b) := by
  obtain ⟨expr, ok, ctx⟩ := e.analyze_coupled coupling h
  simp only [analyzeCase, (e.analyze_extends a).owner_top, (e.analyze_extends b).owner_top, same,
    expr, ok]
  split
  · split
    · exact .done (coupling.reportAny ctx ..) rfl
    · exact ⟨rfl, rfl, ctx⟩
  · exact .done ctx rfl

/-- A simple statement does alike where it sees the same. -/
theorem analyze_coupled (s : Simple) (h : R a b) (same : s.SeesSame a b) :
    Outcome.Coupled R (s.analyze a) (s.analyze b) := by
  cases s with
  | construct target args known =>
    obtain ⟨node, ctx⟩ := analyzeConstruct_coupled coupling target args known h same
    exact .done ctx node
  | expression e =>
    obtain ⟨expr, -, ctx⟩ := e.analyze_coupled coupling h
    exact .done ctx (congrArg expression expr)
  | ret keyword e =>
    have same : a.function.returns = b.function.returns := same
    rw [analyze, analyze, same]
    obtain ⟨expr, ctx⟩ := analyzeWith_coupled coupling e keyword
      (fun e => Rule.return? b.function.returns e.ty?) h
    exact .done ctx (congrArg (ret keyword) expr)
  | delete keyword e =>
    obtain ⟨expr, ctx⟩ := analyzeWith_coupled coupling e keyword Rule.delete? h
    exact .done ctx (congrArg (delete keyword) expr)
  | jump kind keyword label =>
    exact .done (analyzeJump_coupled coupling kind keyword label h same) rfl
  | caseLabel keyword e => exact analyzeCase_coupled coupling keyword e h same
  | defaultLabel keyword => exact .done h rfl
  | assert keyword exprs =>
    cases exprs with
    | nil => exact ⟨rfl, rfl, h⟩
    | cons e es =>
      obtain ⟨exprs, ctx⟩ := analyzeAllWith_coupled coupling (e :: es) keyword
        (fun es => Rule.assert? (es.getLast?.bind Expr.ty?)) h
      exact .done ctx (congrArg (assert keyword) exprs)
  | log keyword es =>
    obtain ⟨exprs, ctx⟩ := analyzeAllWith_coupled coupling es keyword
      (fun es => Rule.log? (es.map Expr.ty?)) h
    exact .done ctx (congrArg (log keyword) exprs)

end Simple

/-! ## Statements -/

/-- The innermost blocks are of switches over the same type, or are both of no switch. -/
def Context.SameSubject (a b : Context) : Prop :=
  a.stack.top.owner.subject? = b.stack.top.owner.subject?

/-- What is analyzed in a block does not change what the block belongs to. -/
theorem Context.SameSubject.of_extends {a b a' b' : Context} (h : a.SameSubject b)
    (left : a.Extends a') (right : b.Extends b') : a'.SameSubject b' := by
  rw [SameSubject, left.owner_top, right.owner_top]
  exact h

namespace Stmt

/-- The simple statements among these do alike in coupled contexts, and the cases among them do so
where the innermost blocks have the same subject. -/
def DoAlike (R : Context → Context → Prop) (statements : List Stmt) : Prop :=
  ∀ s, simple s ∈ statements → ∀ a b, R a b →
    (∀ keyword e, s = .caseLabel keyword e → a.SameSubject b) →
      Outcome.Coupled R (s.analyze a) (s.analyze b)

namespace DoAlike

variable {R : Context → Context → Prop} {s : Stmt} {p q : List Stmt}

/-- What holds of all statements of a list holds of those behind the first. -/
theorem tail (h : DoAlike R (s :: p)) : DoAlike R p :=
  fun s mem => h s (.tail _ mem)

theorem left (h : DoAlike R (p ++ q)) : DoAlike R p :=
  fun s mem => h s (List.mem_append_left q mem)

theorem right (h : DoAlike R (p ++ q)) : DoAlike R q :=
  fun s mem => h s (List.mem_append_right p mem)

end DoAlike

open Outcome.Coupled

variable {R : Context → Context → Prop}

/-- A list in a block of its own does alike: the block has the same owner on both sides, so the
cases in the list see the same subject. -/
theorem within_analyzeList_coupled (coupling : Context.Coupling R) {body : List Stmt}
    (inside : ∀ a b, R a b →
      (∀ keyword e, simple (.caseLabel keyword e) ∈ body → a.SameSubject b) →
        Outcome.Coupled R (analyzeList body a) (analyzeList body b))
    (owner : Owner) {a b : Context} (h : R a b) :
    Outcome.Coupled R (a.within owner (analyzeList body)) (b.within owner (analyzeList body)) :=
  within coupling h (analyzeList_extends body)
    (inside _ _ (coupling.enter h owner) fun _ _ _ => rfl)

mutual

/-- A statement does alike in coupled contexts, and the same becomes of it. -/
theorem analyze_coupled (coupling : Context.Coupling R) : (s : Stmt) →
    DoAlike R s.inOrder → (a b : Context) → R a b →
    (∀ keyword e, s = simple (.caseLabel keyword e) → a.SameSubject b) →
    Outcome.Coupled R (s.analyze a) (s.analyze b)
  | simple s, alike, a, b, h, sameSubject => by
    rw [analyze, analyze]
    have inOrder : simple s ∈ (simple s).inOrder := by
      rw [inOrder]
      exact .head _
    exact passing coupling ((alike s inOrder a b h fun keyword e isCase =>
      sameSubject keyword e (congrArg simple isCase)).map simple)
  | breakable keyword label header body, alike, a, b, h, _ => by
    rw [inOrder] at alike
    have inside := within_analyzeList_coupled coupling
      (analyzeList_coupled coupling body alike.tail)
    obtain ⟨sameHeader, sameKind, behind⟩ := header.analyze_coupled coupling keyword h
    rw [analyze, analyze, sameHeader, sameKind]
    exact passing coupling ((inside _ behind).map _)
  | ifElse keyword cond onTrue onFalse, alike, a, b, h, _ => by
    rw [inOrder] at alike
    have insideTrue := within_analyzeList_coupled coupling
      (analyzeList_coupled coupling onTrue alike.tail.left)
    have insideFalse := within_analyzeList_coupled coupling
      (analyzeList_coupled coupling onFalse alike.tail.right)
    obtain ⟨sameCond, -, behind⟩ := cond.analyze_coupled coupling h
    rw [analyze, analyze, sameCond]
    exact passing coupling (((insideTrue .branch behind).andThen onFalse
      fun between => insideFalse .branch between).map _)
  | guarded keyword body caught handler finalizer, alike, a, b, h, _ => by
    rw [inOrder] at alike
    have inside := within_analyzeList_coupled coupling
      (analyzeList_coupled coupling body alike.tail.left.left)
    rw [analyze, analyze]
    have withHandler := (inside .guarded h).andThen handler
      fun behind => analyzePart_coupled coupling handler alike.tail.left.right _ _ behind
    exact passing coupling ((withHandler.andThen finalizer
      fun behind => analyzePart_coupled coupling finalizer alike.tail.right _ _ behind).map _)

/-- A list does alike in coupled contexts if the simple statements in its tree do. -/
theorem analyzeList_coupled (coupling : Context.Coupling R) : (body : List Stmt) →
    DoAlike R (inOrderOfList body) → (a b : Context) → R a b →
    (∀ keyword e, simple (.caseLabel keyword e) ∈ body → a.SameSubject b) →
    Outcome.Coupled R (analyzeList body a) (analyzeList body b)
  | [], _, a, b, h, _ => by
    rw [analyzeList, analyzeList]
    exact .done h rfl
  | s :: rest, alike, a, b, h, sameSubject => by
    rw [inOrderOfList] at alike
    have first := analyze_coupled coupling s alike.left a b h
      fun keyword e isCase => sameSubject keyword e (isCase ▸ .head _)
    rw [analyzeList, analyzeList]
    refine (first.andThen rest fun behind => ?_).map _
    exact analyzeList_coupled coupling rest alike.right _ _ behind
      fun keyword e mem => (sameSubject keyword e (.tail _ mem)).of_extends (s.analyze_extends a)
        (s.analyze_extends b)

theorem analyzePart_coupled (coupling : Context.Coupling R) : (part : Option (List Stmt)) →
    DoAlike R (inOrderOfPart part) → (a b : Context) → R a b →
    Outcome.Coupled R (analyzePart part a) (analyzePart part b)
  | none, _, a, b, h => by
    rw [analyzePart, analyzePart]
    exact .done h rfl
  | some body, alike, a, b, h => by
    rw [inOrderOfPart] at alike
    rw [analyzePart, analyzePart]
    exact (within_analyzeList_coupled coupling (analyzeList_coupled coupling body alike) .guarded
      h).map some

end

end Stmt

end BodyCheck
