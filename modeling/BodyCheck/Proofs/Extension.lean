import BodyCheck.Proofs.Steps
import BodyCheck.Stmt.Analysis

/-!
# What an analysis may change

An analysis takes a context to a context, and most of what the context holds is out of its reach.
Nothing that it calls replaces the function or the visible classes; a block that it opens it also
closes; and of the locals it touches those of the innermost open list only, where a variable may
turn from unset to set and nothing else can happen.  Diagnostics and events are added behind those
that are there already.  All of this is one relation between the context before and the context
behind, and the relation holds of every analysis, with and without a fault.

## Main definitions

* `Locals.Grows` — what assignments may do to the locals.
* `BlockStack.frames` — the frames of all open lists, the innermost first.
* `Context.Extends` — what an analysis may do to a context.

## Main statements

* `Context.Extends.refl`, `Context.Extends.trans` and one rule for each thing an analysis does to
  a context: `Context.Extends.report`, `.tell`, `.assign` and `.within`.
* `Expr.analyze_extends`, `Header.analyze_extends`, `Simple.analyze_extends` and
  `Stmt.analyze_extends` — every analysis extends the context it is given.

## Design notes

`Extends` describes the stack behind by an equation: it is the stack before with other locals on
top.  This says at once that no frame was added or lost, that no owner changed, and that the
frames below are untouched, and it composes by rewriting.
-/

namespace BodyCheck

/-! ## Locals -/

namespace Locals

/-- What assignments may do to the locals: no name is declared or forgotten, and a variable that
changes at all turns from unset to set. -/
def Grows (before after : Locals) : Prop :=
  ∀ name, after.status? name = before.status? name ∨
    (before.status? name = some .unset ∧ after.status? name = some .set)

namespace Grows

variable {a b c : Locals}

theorem refl (a : Locals) : a.Grows a :=
  fun _ => .inl rfl

/-- Growth goes on: nothing that was set is unset later. -/
theorem trans (hab : a.Grows b) (hbc : b.Grows c) : a.Grows c := by
  intro name
  rcases hbc name with same | ⟨wasUnset, isSet⟩
  · rw [same]
    exact hab name
  · rcases hab name with same | ⟨_, isSet'⟩
    · exact .inr ⟨same ▸ wasUnset, isSet⟩
    · rw [isSet'] at wasUnset
      cases wasUnset

/-- The declared names stay the same. -/
theorem status?_eq_none_iff (h : a.Grows b) (name : String) :
    b.status? name = none ↔ a.status? name = none := by
  rcases h name with same | ⟨wasUnset, isSet⟩
  · rw [same]
  · simp [wasUnset, isSet]

end Grows

/-- An assignment declares nothing and sets one variable at most. -/
theorem grows_of_assign? {locals after : Locals} {name : String}
    (h : locals.assign? name = some after) : locals.Grows after := by
  intro other
  rw [status?_of_assign?_eq_some h]
  by_cases same : other = name
  · subst same
    cases status : locals.status? other with
    | none => rw [assign?_eq_none_iff.2 status] at h; cases h
    | some known => cases known <;> simp
  · simp [same]

end Locals

/-! ## The stack -/

namespace BlockStack

/-- The frames of all open lists, the innermost first and that of the function itself last. -/
def frames (stack : BlockStack) : List Frame :=
  stack.nested ++ [⟨.function, stack.body⟩]

/-- The depth of a stack is the number of its frames. -/
@[simp] theorem length_frames (stack : BlockStack) : stack.frames.length = stack.depth := by
  simp [frames, depth]

/-- The innermost frame is the first. -/
theorem head?_frames (stack : BlockStack) : stack.frames.head? = some stack.top := by
  obtain ⟨_, _ | _⟩ := stack <;> rfl

@[simp] theorem setLocals_locals (stack : BlockStack) : stack.setLocals stack.locals = stack := by
  obtain ⟨_, _ | _⟩ := stack <;> rfl

/-- Of what is written about the locals only the last counts. -/
@[simp] theorem setLocals_setLocals (stack : BlockStack) (a b : Locals) :
    (stack.setLocals a).setLocals b = stack.setLocals b := by
  obtain ⟨_, _ | _⟩ := stack <;> rfl

/-- The block stays whose it is, whatever is written about the locals. -/
@[simp] theorem owner_top_setLocals (stack : BlockStack) (locals : Locals) :
    (stack.setLocals locals).top.owner = stack.top.owner := by
  obtain ⟨_, _ | _⟩ := stack <;> rfl

@[simp] theorem map_owner_frames_setLocals (stack : BlockStack) (locals : Locals) :
    (stack.setLocals locals).frames.map (·.owner) = stack.frames.map (·.owner) := by
  obtain ⟨_, _ | _⟩ := stack <;> rfl

/-- Only the innermost frame holds the locals that are replaced. -/
@[simp] theorem tail_frames_setLocals (stack : BlockStack) (locals : Locals) :
    (stack.setLocals locals).frames.tail = stack.frames.tail := by
  obtain ⟨_, _ | _⟩ := stack <;> rfl

end BlockStack

/-! ## Outcomes -/

namespace Outcome

variable {α β : Type}

@[simp] theorem ctx_done (node : α) (ctx : Context) : (done node ctx).ctx = ctx := rfl

@[simp] theorem fault_done (node : α) (ctx : Context) : (done node ctx).fault = none := rfl

@[simp] theorem ctx_map (f : α → β) (outcome : Outcome α) : (outcome.map f).ctx = outcome.ctx := rfl

@[simp] theorem fault_map (f : α → β) (outcome : Outcome α) :
    (outcome.map f).fault = outcome.fault := rfl

end Outcome

/-! ## Contexts -/

namespace Context

@[simp] theorem locals_report (ctx : Context) (problem : Problem) (token : Token) :
    (ctx.report problem token).locals = ctx.locals := rfl

/-- Reporting leaves the locals alone, whether there is a problem or not. -/
@[simp] theorem locals_reportAny (ctx : Context) (problem : Option Problem) (token : Token) :
    (ctx.reportAny problem token).locals = ctx.locals := by
  cases problem <;> rfl

@[simp] theorem locals_enter (ctx : Context) (owner : Owner) :
    (ctx.enter owner).locals = ctx.locals := rfl

@[simp] theorem locals_setLocals (ctx : Context) (locals : Locals) :
    (ctx.setLocals locals).locals = locals :=
  BlockStack.locals_setLocals ..

@[simp] theorem diagnostics_report (ctx : Context) (problem : Problem) (token : Token) :
    (ctx.report problem token).diagnostics = ctx.diagnostics ++ [⟨problem, token⟩] := rfl

/-- A problem that may be there adds one diagnostic if it is. -/
@[simp] theorem diagnostics_reportAny (ctx : Context) (problem : Option Problem) (token : Token) :
    (ctx.reportAny problem token).diagnostics
      = ctx.diagnostics ++ problem.toList.map fun problem => ⟨problem, token⟩ := by
  cases problem <;> simp [reportAny]

@[simp] theorem diagnostics_setLocals (ctx : Context) (locals : Locals) :
    (ctx.setLocals locals).diagnostics = ctx.diagnostics := rfl

/-- What an analysis may do to a context: see to the locals of the innermost open list, and add
diagnostics and events. -/
structure Extends (before after : Context) : Prop where
  function : after.function = before.function
  classes : after.classes = before.classes
  /-- No list is left open, and none of the lists around the innermost one is touched. -/
  stack : after.stack = before.stack.setLocals after.locals
  locals : before.locals.Grows after.locals
  diagnostics : before.diagnostics <+: after.diagnostics
  events : before.events <+: after.events

namespace Extends

variable {a b c : Context}

theorem refl (a : Context) : a.Extends a where
  function := rfl
  classes := rfl
  stack := (BlockStack.setLocals_locals _).symm
  locals := .refl _
  diagnostics := List.prefix_rfl
  events := List.prefix_rfl

/-- Extensions follow one another: what was found stays found, and the owners stay the same. -/
theorem trans (hab : a.Extends b) (hbc : b.Extends c) : a.Extends c where
  function := hbc.function.trans hab.function
  classes := hbc.classes.trans hab.classes
  stack := by rw [hbc.stack, hab.stack, BlockStack.setLocals_setLocals]
  locals := hab.locals.trans hbc.locals
  diagnostics := hab.diagnostics.trans hbc.diagnostics
  events := hab.events.trans hbc.events

theorem report (h : a.Extends b) (problem : Problem) (token : Token) :
    a.Extends (b.report problem token) :=
  { h with diagnostics := h.diagnostics.trans (List.prefix_append ..) }

theorem reportAny (h : a.Extends b) (problem : Option Problem) (token : Token) :
    a.Extends (b.reportAny problem token) := by
  cases problem with
  | none => exact h
  | some problem => exact h.report problem token

theorem tell (h : a.Extends b) (event : Event) : a.Extends (b.tell event) :=
  { h with events := h.events.trans (List.prefix_append ..) }

/-- Assigning a declared variable is the only step that touches the locals. -/
theorem assign (h : a.Extends b) {name : String} {locals : Locals}
    (assigned : b.locals.assign? name = some locals) : a.Extends (b.setLocals locals) := by
  refine { h with stack := ?_, locals := ?_ }
  · rw [locals_setLocals, setLocals, h.stack, BlockStack.setLocals_setLocals]
  · rw [locals_setLocals]
    exact h.locals.trans (Locals.grows_of_assign? assigned)

/-- Leaving a block restores the stack, whatever happened to the locals inside it. -/
theorem stack_within {α : Type} {owner : Owner} {analyze : Context → Outcome α}
    (h : (a.enter owner).Extends (analyze (a.enter owner)).ctx) :
    (a.within owner analyze).ctx.stack = a.stack := by
  show (analyze (a.enter owner)).ctx.stack.leave = a.stack
  rw [h.stack]
  rfl

/-- A block that is left again has no effect but on the diagnostics and events. -/
theorem within {α : Type} {owner : Owner} {analyze : Context → Outcome α}
    (h : (a.enter owner).Extends (analyze (a.enter owner)).ctx) :
    a.Extends (a.within owner analyze).ctx := by
  have stack : (a.within owner analyze).ctx.stack = a.stack := stack_within h
  have locals : (a.within owner analyze).ctx.locals = a.locals := congrArg BlockStack.locals stack
  exact {
    function := h.function
    classes := h.classes
    stack := by rw [stack, locals]; exact (BlockStack.setLocals_locals _).symm
    locals := locals ▸ .refl _
    diagnostics := h.diagnostics
    events := ((List.prefix_append ..).trans h.events).trans (List.prefix_append ..) }

/-- A fault is passed on without being noticed but by an event. -/
theorem passing {outcome : Outcome Stmt} (h : a.Extends outcome.ctx) :
    a.Extends outcome.passing.ctx := by
  unfold Outcome.passing
  split
  · exact h.tell _
  · exact h

/-- What follows extends the context if it is analyzed, and behind a fault it is not. -/
theorem andThen {α β : Type} {outcome : Outcome α} {following : β}
    {analyze : Context → Outcome β} (h : a.Extends outcome.ctx)
    (rest : ∀ ctx : Context, ctx.Extends (analyze ctx).ctx) :
    a.Extends (outcome.andThen following analyze).ctx := by
  unfold Outcome.andThen
  split
  · exact h
  · exact h.trans (rest outcome.ctx)

/-- The lists around the innermost one and the owners of all lists are what they were. -/
theorem owners (h : a.Extends b) : b.stack.owners = a.stack.owners := by
  rw [h.stack, BlockStack.owners_setLocals]

/-- The innermost block stays whose it is. -/
theorem owner_top (h : a.Extends b) : b.stack.top.owner = a.stack.top.owner := by
  rw [h.stack, BlockStack.owner_top_setLocals]

end Extends

end Context

/-! ## Every analysis extends its context -/

namespace Expr

/-- The analysis of an expression only adds to what is known and found. -/
theorem analyze_extends (e : Expr) (ctx : Context) : ctx.Extends (e.analyze ctx).ctx := by
  induction e generalizing ctx with
  | value token content known =>
    cases content with
    | failing message => exact (Context.Extends.refl ctx).report ..
    | typed ty => exact .refl ctx
    | untyped => exact .refl ctx
  | read token declared known =>
    rcases analyze_read_cases token declared known ctx with ⟨-, step⟩ | ⟨-, step⟩ | ⟨-, step⟩
    · rw [step]
      exact (Context.Extends.refl ctx).report ..
    · rw [step]
      exact (Context.Extends.refl ctx).report ..
    · rw [step]
      exact .refl ctx
  | assign token source known ih =>
    rcases analyze_assign_cases token source known ctx with
      ⟨-, step⟩ | ⟨-, -, step⟩ | ⟨locals, -, assigned, step⟩
    · rw [step]
      exact ih ctx
    · rw [step]
      exact (ih ctx).report ..
    · rw [step]
      exact (ih ctx).assign assigned
  | index token base key known ihBase ihKey =>
    have both : ctx.Extends (key.analyze (base.analyze ctx).ctx).ctx := (ihBase ctx).trans (ihKey _)
    rcases analyze_index_cases token base key known ctx with ⟨-, step⟩ | ⟨-, -, step⟩ |
      ⟨-, -, -, step⟩ | ⟨ty, -, -, -, -, step⟩ | ⟨ty, element, -, -, -, -, step⟩
    · rw [step]
      exact ihBase ctx
    · rw [step]
      exact both
    · rw [step]
      exact both
    · rw [step]
      exact both.report ..
    · rw [step]
      exact both

theorem analyzeOptional_extends (e : Option Expr) (ctx : Context) :
    ctx.Extends (analyzeOptional e ctx).2 := by
  cases e with
  | none => exact .refl ctx
  | some e => exact e.analyze_extends ctx

theorem analyzeWhileOk_extends (es : List Expr) (ctx : Context) :
    ctx.Extends (analyzeWhileOk es ctx).2.1 := by
  induction es generalizing ctx with
  | nil => exact .refl ctx
  | cons e es ih =>
    rw [analyzeWhileOk]
    dsimp only
    split
    · exact (e.analyze_extends ctx).trans (ih _)
    · exact e.analyze_extends ctx

theorem analyzeArgs_extends (es : List Expr) (ctx : Context) :
    ctx.Extends (analyzeArgs es ctx).2.1 := by
  induction es generalizing ctx with
  | nil => exact .refl ctx
  | cons e es ih =>
    rw [analyzeArgs]
    dsimp only
    split
    · exact (e.analyze_extends ctx).trans (ih _)
    · exact e.analyze_extends ctx

end Expr

theorem Header.analyze_extends (keyword : Token) (header : Header) (ctx : Context) :
    ctx.Extends (header.analyze keyword ctx).ctx := by
  cases header with
  | doWhile cond => exact cond.analyze_extends ctx
  | forIn loopVariable operand => exact operand.analyze_extends ctx
  | forLoop start cond step =>
    exact ((Expr.analyzeOptional_extends start ctx).trans
      (Expr.analyzeOptional_extends cond _)).trans (Expr.analyzeOptional_extends step _)
  | whileLoop cond => exact cond.analyze_extends ctx
  | switch subject => exact (subject.analyze_extends ctx).reportAny ..

namespace Simple

/-- An invocation adds to the context what its arguments do, and perhaps one diagnostic. -/
theorem analyzeConstruct_extends (target : QualifiedName) (args : List Expr)
    (resolution : Option Resolution) (ctx : Context) :
    ctx.Extends (analyzeConstruct target args resolution ctx).2 := by
  have arguments := Expr.analyzeArgs_extends args ctx
  rw [analyzeConstruct]
  split
  · exact (Context.Extends.refl ctx).report ..
  · dsimp only
    split
    · exact arguments
    · split
      · exact arguments
      · exact arguments.report ..

/-- A jump adds an event and perhaps a diagnostic. -/
theorem analyzeJump_extends (kind : JumpKind) (keyword : Token) (label : Option Token)
    (ctx : Context) : ctx.Extends (analyzeJump kind keyword label ctx) := by
  unfold analyzeJump
  dsimp only
  split
  · exact (Context.Extends.refl ctx).report ..
  · exact .refl ctx
  · exact ((Context.Extends.refl ctx).tell _).reportAny ..

/-- A single expression is followed by one diagnostic at most. -/
theorem analyzeWith_extends (e : Expr) (ctx : Context) (keyword : Token)
    (rule : Expr → Option Problem) : ctx.Extends (analyzeWith e ctx keyword rule).2 := by
  rw [analyzeWith]
  dsimp only
  split
  · exact (e.analyze_extends ctx).reportAny ..
  · exact e.analyze_extends ctx

theorem analyzeAllWith_extends (es : List Expr) (ctx : Context) (keyword : Token)
    (rule : List Expr → Option Problem) : ctx.Extends (analyzeAllWith es ctx keyword rule).2 := by
  rw [analyzeAllWith]
  dsimp only
  split
  · exact (Expr.analyzeWhileOk_extends es ctx).reportAny ..
  · exact Expr.analyzeWhileOk_extends es ctx

/-- A case extends the context, also if it is at fault. -/
theorem analyzeCase_extends (keyword : Token) (e : Expr) (ctx : Context) :
    ctx.Extends (analyzeCase keyword e ctx).ctx := by
  rw [analyzeCase]
  split
  · split
    · exact (e.analyze_extends ctx).reportAny ..
    · exact e.analyze_extends ctx
  · exact e.analyze_extends ctx

/-- A simple statement only adds to what is known and found. -/
theorem analyze_extends (s : Simple) (ctx : Context) : ctx.Extends (s.analyze ctx).ctx := by
  cases s with
  | construct target args resolution => exact analyzeConstruct_extends target args resolution ctx
  | expression e => exact e.analyze_extends ctx
  | ret keyword e =>
    rw [analyze, Outcome.ctx_done]
    exact analyzeWith_extends ..
  | delete keyword e =>
    rw [analyze, Outcome.ctx_done]
    exact analyzeWith_extends ..
  | jump kind keyword label => exact analyzeJump_extends kind keyword label ctx
  | caseLabel keyword e => exact analyzeCase_extends keyword e ctx
  | defaultLabel keyword => exact .refl ctx
  | assert keyword exprs =>
    cases exprs with
    | nil => exact .refl ctx
    | cons e es =>
      rw [analyze, Outcome.ctx_done]
      exact analyzeAllWith_extends ..
  | log keyword exprs =>
    rw [analyze, Outcome.ctx_done]
    exact analyzeAllWith_extends ..

end Simple

namespace Stmt

open Context.Extends

mutual

/-- A statement only adds to what is known and found, as every block in it is left again. -/
theorem analyze_extends : (s : Stmt) → (ctx : Context) → ctx.Extends (s.analyze ctx).ctx
  | simple s, ctx => by
    rw [analyze]
    exact passing (s.analyze_extends ctx)
  | breakable keyword label header body, ctx => by
    rw [analyze]
    exact passing ((header.analyze_extends keyword ctx).trans (within (analyzeList_extends body _)))
  | ifElse keyword cond onTrue onFalse, ctx => by
    rw [analyze]
    exact passing ((cond.analyze_extends ctx).trans
      (andThen (within (analyzeList_extends onTrue _))
        fun ctx => within (analyzeList_extends onFalse _)))
  | guarded keyword body caught handler finalizer, ctx => by
    rw [analyze]
    exact passing (andThen (andThen (within (analyzeList_extends body _))
      (analyzePart_extends handler)) (analyzePart_extends finalizer))

/-- The analysis of a list only adds to what is known and found, up to a fault or to its end. -/
theorem analyzeList_extends :
    (body : List Stmt) → (ctx : Context) → ctx.Extends (analyzeList body ctx).ctx
  | [], ctx => by
    rw [analyzeList]
    exact .refl ctx
  | s :: rest, ctx => by
    rw [analyzeList]
    exact andThen (analyze_extends s ctx) (analyzeList_extends rest)

theorem analyzePart_extends :
    (part : Option (List Stmt)) → (ctx : Context) → ctx.Extends (analyzePart part ctx).ctx
  | none, ctx => by
    rw [analyzePart]
    exact .refl ctx
  | some body, ctx => by
    rw [analyzePart]
    exact within (analyzeList_extends body _)

end

end Stmt

end BodyCheck
