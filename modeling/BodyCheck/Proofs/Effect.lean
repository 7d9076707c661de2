import BodyCheck.Proofs.Extension

/-!
# The effect of an analysis

What has been found before an analysis has no part in it, and of what happens inside a compound
statement nothing is left behind it but the assignments of its controlling expressions.

## Main definitions

* `Context.prepend` — the same context with a longer past.
* `Stmt.controls?` — the controlling expressions of a compound statement.
* `Expr.analyzeEach` — the analysis of several expressions, whatever comes of each.

## Main statements

* `Expr.analyze_prepend`, `Simple.analyze_prepend`, `Stmt.analyze_prepend` — an analysis does the
  same whatever was found before it.
* `Stmt.locals_analyze_of_controls?` — the locals behind a compound statement.
* `Stmt.analyze_effect` — the effect of the analysis of a statement.

## Design notes

The past is prepended, not replaced, because every step of an analysis adds at the end: prepending
then commutes with each of them, and replacing the past is prepending to an empty one.
-/

namespace BodyCheck

/-! ## The past of a context -/

namespace Context

/-- The same context, before whose diagnostics and events there were others. -/
def prepend (diagnostics : List Diagnostic) (events : List Event) (ctx : Context) : Context :=
  { ctx with
    diagnostics := diagnostics ++ ctx.diagnostics
    events := events ++ ctx.events }

section Prepend

variable (diagnostics : List Diagnostic) (events : List Event) (ctx : Context)

@[simp] theorem function_prepend : (ctx.prepend diagnostics events).function = ctx.function := rfl

@[simp] theorem classes_prepend : (ctx.prepend diagnostics events).classes = ctx.classes := rfl

@[simp] theorem stack_prepend : (ctx.prepend diagnostics events).stack = ctx.stack := rfl

@[simp] theorem locals_prepend : (ctx.prepend diagnostics events).locals = ctx.locals := rfl

@[simp] theorem report_prepend (problem : Problem) (token : Token) :
    (ctx.prepend diagnostics events).report problem token
      = (ctx.report problem token).prepend diagnostics events := by
  simp [report, prepend]

/-- What was found and told before makes no difference to what is reported. -/
@[simp] theorem reportAny_prepend (problem : Option Problem) (token : Token) :
    (ctx.prepend diagnostics events).reportAny problem token
      = (ctx.reportAny problem token).prepend diagnostics events := by
  cases problem with
  | none => rfl
  | some problem => exact report_prepend ..

@[simp] theorem tell_prepend (event : Event) :
    (ctx.prepend diagnostics events).tell event
      = (ctx.tell event).prepend diagnostics events := by
  simp [tell, prepend]

@[simp] theorem setLocals_prepend (locals : Locals) :
    (ctx.prepend diagnostics events).setLocals locals
      = (ctx.setLocals locals).prepend diagnostics events := rfl

@[simp] theorem enter_prepend (owner : Owner) :
    (ctx.prepend diagnostics events).enter owner
      = (ctx.enter owner).prepend diagnostics events := by
  simp [enter, tell, prepend]

@[simp] theorem leave_prepend :
    (ctx.prepend diagnostics events).leave = ctx.leave.prepend diagnostics events := by
  simp [leave, tell, prepend]

end Prepend

end Context

/-- The same analysis with a longer past. -/
def Expr.Checked.prepend (diagnostics : List Diagnostic) (events : List Event)
    (checked : Expr.Checked) : Expr.Checked :=
  { checked with ctx := checked.ctx.prepend diagnostics events }

/-- The same outcome with a longer past. -/
def Outcome.prepend {α : Type} (diagnostics : List Diagnostic) (events : List Event)
    (outcome : Outcome α) : Outcome α :=
  { outcome with ctx := outcome.ctx.prepend diagnostics events }

/-! ## An analysis does the same whatever was found before it -/

section Past

variable (diagnostics : List Diagnostic) (events : List Event)

namespace Expr

/-- An expression is analyzed the same whatever was found and told before. -/
theorem analyze_prepend (e : Expr) (ctx : Context) :
    e.analyze (ctx.prepend diagnostics events)
      = (e.analyze ctx).prepend diagnostics events := by
  induction e generalizing ctx with
  | value token content known => cases content <;> simp [analyze, Checked.prepend]
  | read token declared known =>
    rw [analyze, analyze, Context.locals_prepend]
    split <;> simp [Checked.prepend]
  | assign token source known ih =>
    rw [analyze, analyze, ih]
    by_cases ok : (source.analyze ctx).ok = true
    · cases assigned : (source.analyze ctx).ctx.locals.assign? token.value <;>
        simp [Checked.prepend, ok, assigned]
    · simp [Checked.prepend, ok]
  | index token base key known ihBase ihKey =>
    rw [analyze, analyze, ihBase]
    by_cases okBase : (base.analyze ctx).ok = true
    · by_cases okKey : (key.analyze (base.analyze ctx).ctx).ok = true
      · cases ty : (base.analyze ctx).expr.ty? with
        | none => simp [Checked.prepend, ihKey, okBase, okKey, ty]
        | some ty' =>
          cases element : ty'.indexed? <;>
            simp [Checked.prepend, ihKey, okBase, okKey, ty, element]
      · simp [Checked.prepend, ihKey, okBase, okKey]
    · simp [Checked.prepend, okBase]

theorem analyzeOptional_prepend (e : Option Expr) (ctx : Context) :
    analyzeOptional e (ctx.prepend diagnostics events)
      = ((analyzeOptional e ctx).1, (analyzeOptional e ctx).2.prepend diagnostics events) := by
  cases e with
  | none => rfl
  | some e =>
    simp only [analyzeOptional, analyze_prepend]
    rfl

theorem analyzeWhileOk_prepend (es : List Expr) (ctx : Context) :
    analyzeWhileOk es (ctx.prepend diagnostics events)
      = ((analyzeWhileOk es ctx).1, (analyzeWhileOk es ctx).2.1.prepend diagnostics events,
          (analyzeWhileOk es ctx).2.2) := by
  induction es generalizing ctx with
  | nil => rfl
  | cons e es ih =>
    rw [analyzeWhileOk, analyzeWhileOk, analyze_prepend]
    by_cases ok : (e.analyze ctx).ok = true <;> simp [Checked.prepend, ih, ok]

theorem analyzeArgs_prepend (es : List Expr) (ctx : Context) :
    analyzeArgs es (ctx.prepend diagnostics events)
      = ((analyzeArgs es ctx).1, (analyzeArgs es ctx).2.1.prepend diagnostics events,
          (analyzeArgs es ctx).2.2) := by
  induction es generalizing ctx with
  | nil => rfl
  | cons e es ih =>
    rw [analyzeArgs, analyzeArgs, analyze_prepend]
    cases ok : (e.analyze ctx).ok <;> cases ty : (e.analyze ctx).expr.ty? <;>
      simp [Checked.prepend, ih, ok, ty]

end Expr

theorem Header.analyze_prepend (keyword : Token) (header : Header) (ctx : Context) :
    header.analyze keyword (ctx.prepend diagnostics events)
      = { header.analyze keyword ctx with
          ctx := (header.analyze keyword ctx).ctx.prepend diagnostics events } := by
  cases header with
  | doWhile cond | whileLoop cond | forIn loopVariable cond =>
    simp only [analyze, Expr.analyze_prepend]
    rfl
  | forLoop start cond step => simp only [analyze, Expr.analyzeOptional_prepend]
  | switch subject =>
    simp only [analyze, Expr.analyze_prepend, Expr.Checked.prepend, Context.reportAny_prepend]

namespace Simple

theorem analyzeConstruct_prepend (target : QualifiedName) (args : List Expr)
    (resolution : Option Resolution) (ctx : Context) :
    analyzeConstruct target args resolution (ctx.prepend diagnostics events)
      = ((analyzeConstruct target args resolution ctx).1,
          (analyzeConstruct target args resolution ctx).2.prepend diagnostics events) := by
  have target : target.resolve (ctx.prepend diagnostics events) = target.resolve ctx := rfl
  unfold analyzeConstruct
  rw [target, Expr.analyzeArgs_prepend]
  dsimp only
  split
  · simp
  · split
    · rfl
    · split <;> simp

/-- A jump looks at the open blocks, and not at what was found and told. -/
theorem analyzeJump_prepend (kind : JumpKind) (keyword : Token) (label : Option Token)
    (ctx : Context) :
    analyzeJump kind keyword label (ctx.prepend diagnostics events)
      = (analyzeJump kind keyword label ctx).prepend diagnostics events := by
  unfold analyzeJump
  dsimp only [Context.stack_prepend]
  split <;> simp

/-- A rule behind an expression looks at the expression only. -/
theorem analyzeWith_prepend (e : Expr) (ctx : Context) (keyword : Token)
    (rule : Expr → Option Problem) :
    analyzeWith e (ctx.prepend diagnostics events) keyword rule
      = ((analyzeWith e ctx keyword rule).1,
          (analyzeWith e ctx keyword rule).2.prepend diagnostics events) := by
  unfold analyzeWith
  rw [Expr.analyze_prepend]
  dsimp only [Expr.Checked.prepend]
  split <;> simp

/-- A rule behind several expressions looks at these only. -/
theorem analyzeAllWith_prepend (es : List Expr) (ctx : Context) (keyword : Token)
    (rule : List Expr → Option Problem) :
    analyzeAllWith es (ctx.prepend diagnostics events) keyword rule
      = ((analyzeAllWith es ctx keyword rule).1,
          (analyzeAllWith es ctx keyword rule).2.prepend diagnostics events) := by
  unfold analyzeAllWith
  rw [Expr.analyzeWhileOk_prepend]
  dsimp only
  split <;> simp

/-- A case looks at the innermost block and not at what was found and told. -/
theorem analyzeCase_prepend (keyword : Token) (e : Expr) (ctx : Context) :
    analyzeCase keyword e (ctx.prepend diagnostics events)
      = (analyzeCase keyword e ctx).prepend diagnostics events := by
  unfold analyzeCase
  rw [Expr.analyze_prepend]
  dsimp only [Expr.Checked.prepend, Context.stack_prepend]
  split
  · split <;> simp [Outcome.done, Outcome.prepend]
  · rfl

/-- A simple statement is analyzed the same whatever was found and told before, fault included. -/
theorem analyze_prepend (s : Simple) (ctx : Context) :
    s.analyze (ctx.prepend diagnostics events)
      = (s.analyze ctx).prepend diagnostics events := by
  cases s with
  | construct target args resolution =>
    simp only [analyze, analyzeConstruct_prepend]
    rfl
  | expression e =>
    simp only [analyze, Expr.analyze_prepend]
    rfl
  | ret keyword e | delete keyword e =>
    simp only [analyze, Context.function_prepend, analyzeWith_prepend]
    rfl
  | jump kind keyword label =>
    simp only [analyze, analyzeJump_prepend]
    rfl
  | caseLabel keyword e => exact analyzeCase_prepend ..
  | defaultLabel keyword => rfl
  | assert keyword exprs =>
    cases exprs with
    | nil => rfl
    | cons e es =>
      simp only [analyze, analyzeAllWith_prepend]
      rfl
  | log keyword exprs =>
    simp only [analyze, analyzeAllWith_prepend]
    rfl

end Simple

/-- A block does nothing to the past but to add to it. -/
theorem Context.within_prepend {α : Type} (ctx : Context) (owner : Owner)
    {analyze : Context → Outcome α}
    (h : ∀ ctx : Context, analyze (ctx.prepend diagnostics events)
      = (analyze ctx).prepend diagnostics events) :
    (ctx.prepend diagnostics events).within owner analyze
      = (ctx.within owner analyze).prepend diagnostics events := by
  rw [within, enter_prepend, h]
  simp [within, Outcome.prepend]

namespace Outcome

variable {α β : Type}

theorem map_prepend (f : α → β) (outcome : Outcome α) :
    (outcome.prepend diagnostics events).map f = (outcome.map f).prepend diagnostics events := rfl

/-- What is told of a fault that passes comes behind what was told before. -/
theorem passing_prepend (outcome : Outcome Stmt) :
    (outcome.prepend diagnostics events).passing
      = outcome.passing.prepend diagnostics events := by
  obtain ⟨node, ctx, _ | fault⟩ := outcome <;> simp [passing, prepend]

/-- A sequence may have anything found and told before it, if the second part may. -/
theorem andThen_prepend (outcome : Outcome α) (following : β) {analyze : Context → Outcome β}
    (h : ∀ ctx : Context, analyze (ctx.prepend diagnostics events)
      = (analyze ctx).prepend diagnostics events) :
    (outcome.prepend diagnostics events).andThen following analyze
      = (outcome.andThen following analyze).prepend diagnostics events := by
  obtain ⟨node, ctx, _ | fault⟩ := outcome
  · simp [andThen, prepend, map, h]
  · rfl

end Outcome

namespace Stmt

open Context Outcome

mutual

/-- The analysis of a statement does the same whatever was found before it. -/
theorem analyze_prepend : (s : Stmt) → (ctx : Context) →
    s.analyze (ctx.prepend diagnostics events) = (s.analyze ctx).prepend diagnostics events
  | simple s, ctx => by
    rw [analyze, analyze, Simple.analyze_prepend, map_prepend, passing_prepend]
  | breakable keyword label header body, ctx => by
    rw [analyze, analyze, Header.analyze_prepend]
    dsimp only
    rw [within_prepend _ _ _ _ (analyzeList_prepend body), map_prepend, passing_prepend]
  | ifElse keyword cond onTrue onFalse, ctx => by
    rw [analyze, analyze, Expr.analyze_prepend]
    dsimp only [Expr.Checked.prepend]
    rw [within_prepend _ _ _ _ (analyzeList_prepend onTrue),
      andThen_prepend _ _ _ _ fun ctx => within_prepend _ _ ctx _ (analyzeList_prepend onFalse),
      map_prepend, passing_prepend]
  | guarded keyword body caught handler finalizer, ctx => by
    rw [analyze, analyze, within_prepend _ _ _ _ (analyzeList_prepend body),
      andThen_prepend _ _ _ _ (analyzePart_prepend handler),
      andThen_prepend _ _ _ _ (analyzePart_prepend finalizer), map_prepend, passing_prepend]

/-- A list is analyzed the same whatever was found and told before. -/
theorem analyzeList_prepend : (body : List Stmt) → (ctx : Context) →
    analyzeList body (ctx.prepend diagnostics events)
      = (analyzeList body ctx).prepend diagnostics events
  | [], ctx => by
    rw [analyzeList, analyzeList]
    rfl
  | s :: rest, ctx => by
    rw [analyzeList, analyzeList, analyze_prepend s,
      andThen_prepend _ _ _ _ (analyzeList_prepend rest), map_prepend]

theorem analyzePart_prepend : (part : Option (List Stmt)) → (ctx : Context) →
    analyzePart part (ctx.prepend diagnostics events)
      = (analyzePart part ctx).prepend diagnostics events
  | none, ctx => by
    rw [analyzePart, analyzePart]
    rfl
  | some body, ctx => by
    rw [analyzePart, analyzePart, within_prepend _ _ _ _ (analyzeList_prepend body), map_prepend]

end

end Stmt

end Past

/-! ## What an expression adds to the diagnostics -/

namespace Expr

/-- An expression without a problem adds no diagnostic. -/
theorem diagnostics_of_ok (e : Expr) (ctx : Context) (ok : (e.analyze ctx).ok = true) :
    (e.analyze ctx).ctx.diagnostics = ctx.diagnostics := by
  induction e generalizing ctx with
  | value token content known =>
    cases content with
    | failing message => cases ok
    | typed ty => rfl
    | untyped => rfl
  | read token declared known =>
    rcases analyze_read_cases token declared known ctx with ⟨-, step⟩ | ⟨-, step⟩ | ⟨-, step⟩
    · rw [step] at ok
      cases ok
    · rw [step] at ok
      cases ok
    · rw [step]
  | assign token source known ih =>
    rcases analyze_assign_cases token source known ctx with
      ⟨-, step⟩ | ⟨-, -, step⟩ | ⟨locals, okSource, -, step⟩
    · rw [step] at ok
      cases ok
    · rw [step] at ok
      cases ok
    · rw [step]
      exact ih ctx okSource
  | index token base key known ihBase ihKey =>
    rcases analyze_index_cases token base key known ctx with ⟨-, step⟩ | ⟨-, -, step⟩ |
      ⟨okBase, okKey, -, step⟩ | ⟨ty, -, -, -, -, step⟩ | ⟨ty, element, okBase, okKey, -, -, step⟩
    · rw [step] at ok
      cases ok
    · rw [step] at ok
      cases ok
    · rw [step]
      exact (ihKey _ okKey).trans (ihBase ctx okBase)
    · rw [step] at ok
      cases ok
    · rw [step]
      exact (ihKey _ okKey).trans (ihBase ctx okBase)

/-- An expression with a problem adds one diagnostic. -/
theorem exists_diagnostic_of_not_ok (e : Expr) (ctx : Context) (wrong : (e.analyze ctx).ok = false) :
    ∃ found, (e.analyze ctx).ctx.diagnostics = ctx.diagnostics ++ [found] := by
  induction e generalizing ctx with
  | value token content known =>
    cases content with
    | failing message => exact ⟨_, rfl⟩
    | typed ty => cases wrong
    | untyped => cases wrong
  | read token declared known =>
    rcases analyze_read_cases token declared known ctx with ⟨-, step⟩ | ⟨-, step⟩ | ⟨-, step⟩
    · rw [step]
      exact ⟨_, rfl⟩
    · rw [step]
      exact ⟨_, rfl⟩
    · rw [step] at wrong
      cases wrong
  | assign token source known ih =>
    rcases analyze_assign_cases token source known ctx with
      ⟨wrongSource, step⟩ | ⟨okSource, -, step⟩ | ⟨locals, -, -, step⟩
    · rw [step]
      exact ih ctx wrongSource
    · rw [step, ← source.diagnostics_of_ok ctx okSource]
      exact ⟨_, rfl⟩
    · rw [step] at wrong
      cases wrong
  | index token base key known ihBase ihKey =>
    rcases analyze_index_cases token base key known ctx with ⟨wrongBase, step⟩ |
      ⟨okBase, wrongKey, step⟩ | ⟨-, -, -, step⟩ | ⟨ty, okBase, okKey, -, -, step⟩ |
      ⟨ty, element, -, -, -, -, step⟩
    · rw [step]
      exact ihBase ctx wrongBase
    · rw [step, ← base.diagnostics_of_ok ctx okBase]
      exact ihKey _ wrongKey
    · rw [step] at wrong
      cases wrong
    · rw [step, ← base.diagnostics_of_ok ctx okBase, ← key.diagnostics_of_ok _ okKey]
      exact ⟨_, rfl⟩
    · rw [step] at wrong
      cases wrong

/-- If nothing is found at an expression, nothing is wrong with it. -/
theorem ok_of_silent {e : Expr} {ctx : Context}
    (silent : (e.analyze ctx).ctx.diagnostics = ctx.diagnostics) : (e.analyze ctx).ok = true := by
  cases ok : (e.analyze ctx).ok with
  | true => rfl
  | false =>
    obtain ⟨found, added⟩ := e.exists_diagnostic_of_not_ok ctx ok
    rw [added] at silent
    simp at silent

end Expr

/-! ## Behind a compound statement -/

/-- Analyzes expressions in order, whatever comes of each of them. -/
def Expr.analyzeEach (es : List Expr) (ctx : Context) : Context :=
  es.foldl (fun ctx e => (e.analyze ctx).ctx) ctx

/-- The expressions of a simple statement, in order. -/
def Simple.exprs : Simple → List Expr
  | construct _ args _ => args
  | expression e | ret _ e | delete _ e | caseLabel _ e => [e]
  | jump .. | defaultLabel _ => []
  | assert _ exprs | log _ exprs => exprs

/-- The expressions of a header, in the order in which they are analyzed. -/
def Header.exprs : Header → List Expr
  | doWhile cond => [cond]
  | forIn _ operand => [operand]
  | forLoop start cond step => start.toList ++ cond.toList ++ step.toList
  | whileLoop cond => [cond]
  | switch subject => [subject]

/-- The controlling expressions of a statement that has lists of statements inside it. -/
def Stmt.controls? : Stmt → Option (List Expr)
  | simple _ => none
  | breakable _ _ header _ => some header.exprs
  | ifElse _ cond _ _ => some [cond]
  | guarded .. => some []

/-- The locals behind a header are those behind its expressions. -/
theorem Header.locals_analyze (keyword : Token) (header : Header) (ctx : Context) :
    (header.analyze keyword ctx).ctx.locals = (Expr.analyzeEach header.exprs ctx).locals := by
  cases header with
  | doWhile cond | forIn loopVariable cond | whileLoop cond => rfl
  | forLoop start cond step => cases start <;> cases cond <;> cases step <;> rfl
  | switch subject => exact Context.locals_reportAny ..

namespace Outcome

variable {α β : Type}

/-- A fault that passes leaves the stack alone. -/
@[simp] theorem stack_passing (outcome : Outcome Stmt) :
    outcome.passing.ctx.stack = outcome.ctx.stack := by
  obtain ⟨node, ctx, _ | fault⟩ := outcome <;> rfl

/-- What follows is either left out or does not touch the stack. -/
theorem stack_andThen (outcome : Outcome α) (following : β) {analyze : Context → Outcome β}
    (h : ∀ ctx : Context, (analyze ctx).ctx.stack = ctx.stack) :
    (outcome.andThen following analyze).ctx.stack = outcome.ctx.stack := by
  obtain ⟨node, ctx, _ | fault⟩ := outcome
  · exact h ctx
  · rfl

end Outcome

namespace Stmt

/-- Behind a block the stack is what it was before, whatever was analyzed in it. -/
theorem stack_within_analyzeList (body : List Stmt) (ctx : Context) (owner : Owner) :
    (ctx.within owner (analyzeList body)).ctx.stack = ctx.stack :=
  Context.Extends.stack_within (analyzeList_extends body _)

theorem stack_analyzePart (part : Option (List Stmt)) (ctx : Context) :
    (analyzePart part ctx).ctx.stack = ctx.stack := by
  cases part with
  | none => rw [analyzePart, Outcome.ctx_done]
  | some body => rw [analyzePart, Outcome.ctx_map, stack_within_analyzeList]

/-- A compound statement leaves the stack as its controlling expressions leave it: each of its
lists has a block of its own, which is closed again also after a fault. -/
theorem locals_analyze_of_controls? {s : Stmt} {exprs : List Expr} (h : s.controls? = some exprs)
    (ctx : Context) : (s.analyze ctx).ctx.locals = (Expr.analyzeEach exprs ctx).locals := by
  cases s with
  | simple s => cases h
  | breakable keyword label header body =>
    cases h
    rw [analyze, Context.locals, Outcome.stack_passing, Outcome.ctx_map, stack_within_analyzeList]
    exact header.locals_analyze keyword ctx
  | ifElse keyword cond onTrue onFalse =>
    cases h
    rw [analyze, Context.locals, Outcome.stack_passing, Outcome.ctx_map,
      Outcome.stack_andThen _ _ fun ctx => stack_within_analyzeList onFalse ctx _,
      stack_within_analyzeList]
    rfl
  | guarded keyword body caught handler finalizer =>
    cases h
    rw [analyze, Context.locals, Outcome.stack_passing, Outcome.ctx_map,
      Outcome.stack_andThen _ _ (stack_analyzePart finalizer),
      Outcome.stack_andThen _ _ (stack_analyzePart handler), stack_within_analyzeList]
    rfl

/-- What a statement adds to the diagnostics does not depend on those that were there before, and
nor does anything else that comes of its analysis. -/
theorem exists_found (s : Stmt) (ctx : Context) :
    ∃ found, ∀ old, s.analyze { ctx with diagnostics := old }
      = { s.analyze ctx with ctx := { (s.analyze ctx).ctx with diagnostics := old ++ found } } := by
  have fresh : ∀ old, s.analyze { ctx with diagnostics := old }
      = (s.analyze { ctx with diagnostics := [] }).prepend old [] := by
    intro old
    rw [← analyze_prepend]
    simp [Context.prepend]
  refine ⟨(s.analyze { ctx with diagnostics := [] }).ctx.diagnostics, fun old => ?_⟩
  have now := fresh ctx.diagnostics
  rw [show { ctx with diagnostics := ctx.diagnostics } = ctx from rfl] at now
  rw [fresh old, now]
  rfl

/-- **The effect of an analysis.**  With or without a fault, all frames keep their owners, and
all but the innermost keep their locals; in the innermost the declared names stay the same and a
variable that changes turns from unset to set; the function and the classes stay what they are;
diagnostics are added behind the old ones, and neither they nor anything else that comes of the
analysis depends on what the old ones were.  Behind a compound statement the locals are those
behind its controlling expressions. -/
theorem analyze_effect (s : Stmt) (ctx : Context) :
    let outcome := s.analyze ctx
    outcome.ctx.stack.depth = ctx.stack.depth ∧
    outcome.ctx.stack.frames.map (·.owner) = ctx.stack.frames.map (·.owner) ∧
    outcome.ctx.stack.frames.tail = ctx.stack.frames.tail ∧
    (∀ name, outcome.ctx.locals.status? name = ctx.locals.status? name ∨
      (ctx.locals.status? name = some .unset ∧ outcome.ctx.locals.status? name = some .set)) ∧
    outcome.ctx.function = ctx.function ∧
    outcome.ctx.classes = ctx.classes ∧
    (∃ found, outcome.ctx.diagnostics = ctx.diagnostics ++ found ∧
      ∀ old, s.analyze { ctx with diagnostics := old }
        = { outcome with ctx := { outcome.ctx with diagnostics := old ++ found } }) ∧
    ∀ exprs, s.controls? = some exprs →
      outcome.ctx.locals = (Expr.analyzeEach exprs ctx).locals := by
  have extension := s.analyze_extends ctx
  obtain ⟨found, independent⟩ := s.exists_found ctx
  have here := congrArg (fun outcome => outcome.ctx.diagnostics) (independent ctx.diagnostics)
  refine ⟨?_, ?_, ?_, extension.locals, extension.function, extension.classes,
    ⟨found, here, independent⟩, fun exprs h => locals_analyze_of_controls? h ctx⟩
  · rw [extension.stack, BlockStack.depth_setLocals]
  · rw [extension.stack, BlockStack.map_owner_frames_setLocals]
  · rw [extension.stack, BlockStack.tail_frames_setLocals]

/-- A do-while loop with a fault behind an assignment in its body keeps nothing of that
assignment, and keeps the one in its condition. -/
theorem analyze_effect_of_faulting_loop :
    let assigned (name : String) : Expr :=
      .assign (.synthetic name) (.value (.synthetic "1") (.typed .int) none) none
    let loop : Stmt := .breakable (.synthetic "do") none (.doWhile (assigned "x"))
      [.simple (.expression (assigned "y")), .simple (.assert (.synthetic "assert") [])]
    let ctx := Context.start default ⟨[("x", .unset), ("y", .unset)]⟩ default
    (loop.analyze ctx).fault.isSome = true ∧ loop.controls? = some [assigned "x"] ∧
      (loop.analyze ctx).ctx.locals = (Expr.analyzeEach [assigned "x"] ctx).locals ∧
      (loop.analyze ctx).ctx.locals.status? "x" = some .set ∧
      (loop.analyze ctx).ctx.locals.status? "y" = some .unset := by
  intro assigned loop ctx
  have behind : (loop.analyze ctx).ctx.locals = (Expr.analyzeEach [assigned "x"] ctx).locals :=
    (analyze_effect loop ctx).2.2.2.2.2.2.2 [assigned "x"] rfl
  refine ⟨by decide +kernel, rfl, behind, ?_, ?_⟩
  · rw [behind]
    decide +kernel
  · rw [behind]
    decide +kernel

end Stmt

end BodyCheck
