import BodyCheck.Proofs.AsBuilt
import BodyCheck.Proofs.Attribution

/-!
# Sibling lists

The lists inside one statement do not know of each other.  Each of them starts from the same
context, and when its block is closed nothing is left of it but what has been found and told.  So
the arms of an if statement may be exchanged, and each part of a try statement finds what it finds
alone.

## Main definitions

* `Context.append` — the same context after more has been found and told.
* `Context.foundSince` — what has been found since an earlier context.
* `Stmt.alone` — a list in a block of its own, with nothing found so far.
* `Stmt.filled` — a try statement with an empty list for each part that is absent.

## Main statements

* `Stmt.within_analyzeList_eq` — a list in a block of its own, as it is analyzed alone.
* `Stmt.analyze_ifElse_eq`, `Stmt.analyze_guarded_eq` — statements with several lists, all of which
  come to their ends, as what comes of each list alone.
* `Stmt.alike_analyze_filled` — an absent part is like an empty one.
* `Stmt.siblings_independent` — all this together.

## Design notes

What is found alone is a function of the context without its past, and appending to the past of a
context leaves that context the same.  So it is by definition that a list does the same behind a
sibling as in front of it.
-/

namespace BodyCheck

/-! ## What has been added to a context -/

namespace Context

variable {a b : Context} {found : List Diagnostic} {told told' : List Event}

/-- The same context after more has been found and told. -/
def append (ctx : Context) (found : List Diagnostic) (told : List Event) : Context :=
  { ctx with
    diagnostics := ctx.diagnostics ++ found
    events := ctx.events ++ told }

/-- What has been found since an earlier context. -/
def foundSince (ctx before : Context) : List Diagnostic :=
  ctx.diagnostics.drop before.diagnostics.length

/-- The same context with nothing told so far. -/
def untold (ctx : Context) : Context :=
  { ctx with events := [] }

@[simp] theorem fresh_append (ctx : Context) (found : List Diagnostic) (told : List Event) :
    (ctx.append found told).fresh = ctx.fresh := rfl

@[simp] theorem append_append (ctx : Context) (found found' : List Diagnostic)
    (told told' : List Event) :
    (ctx.append found told).append found' told' = ctx.append (found ++ found') (told ++ told') := by
  simp [append]

@[simp] theorem append_nil (ctx : Context) : ctx.append [] [] = ctx := by
  simp [append]

@[simp] theorem foundSince_append (ctx : Context) (found : List Diagnostic) (told : List Event) :
    (ctx.append found told).foundSince ctx = found :=
  List.drop_left

/-- What has been found since an earlier context comes behind what had been found then. -/
theorem Extends.append_foundSince (h : a.Extends b) :
    a.diagnostics ++ b.foundSince a = b.diagnostics := by
  obtain ⟨found, added⟩ := h.diagnostics
  rw [foundSince, ← added, List.drop_left]

/-- Contexts that differ only in what was told differ only in their past. -/
theorem fresh_of_untold (h : a.untold = b.untold) : a.fresh = b.fresh := by
  show a.untold.fresh = b.untold.fresh
  rw [h]

/-- What is told makes no difference to what is found. -/
theorem untold_append (h : a.untold = b.untold) :
    (a.append found told).untold = (b.append found told').untold :=
  congrArg (append · found []) h

/-- A context that nothing has been done to but to find and to tell. -/
theorem eq_append (function : b.function = a.function) (classes : b.classes = a.classes)
    (stack : b.stack = a.stack) (diagnostics : b.diagnostics = a.diagnostics ++ found)
    (events : b.events = a.events ++ told) : b = a.append found told := by
  rw [append, ← function, ← classes, ← stack, ← diagnostics, ← events]

end Context

/-! ## Outcomes -/

namespace Outcome

variable {α β γ δ : Type}

theorem done_andThen (node : α) (ctx : Context) (following : β) (analyze : Context → Outcome β) :
    (done node ctx).andThen following analyze = (analyze ctx).map fun other => (node, other) := rfl

/-- A sequence has no fault just if neither part has one. -/
theorem fault_andThen_eq_none_iff {outcome : Outcome α} {following : β}
    {analyze : Context → Outcome β} :
    (outcome.andThen following analyze).fault = none ↔
      outcome.fault = none ∧ (analyze outcome.ctx).fault = none := by
  obtain ⟨node, ctx, _ | fault⟩ := outcome <;> simp [andThen]

theorem fresh_andThen (outcome : Outcome α) (following : β) {analyze : Context → Outcome β}
    (h : ∀ ctx, (analyze ctx).ctx.fresh = ctx.fresh) :
    (outcome.andThen following analyze).ctx.fresh = outcome.ctx.fresh := by
  obtain ⟨node, ctx, _ | fault⟩ := outcome
  · exact h ctx
  · rfl

theorem map_done (f : α → β) (node : α) (ctx : Context) :
    (done node ctx).map f = done (f node) ctx := rfl

theorem passing_done (s : Stmt) (ctx : Context) : (done s ctx).passing = done s ctx := rfl

/-- The two analyses end in the same way and with the same context, but for what is told, and what
they make of their nodes corresponds by `f`. -/
structure Alike (f : α → β) (a : Outcome α) (b : Outcome β) : Prop where
  node : b.node = f a.node
  fault : b.fault = a.fault
  ctx : b.ctx.untold = a.ctx.untold

namespace Alike

variable {f : α → β} {a : Outcome α} {b : Outcome β}

/-- Nodes that correspond still do after the same has been made of both. -/
theorem map (h : Alike f a b) {g : γ → δ} {into : α → γ} {into' : β → δ}
    (commutes : ∀ node, into' (f node) = g (into node)) :
    Alike g (a.map into) (b.map into') where
  node := by rw [node_map, node_map, h.node, commutes]
  fault := h.fault
  ctx := h.ctx

theorem passing {f : Stmt → Stmt} {a b : Outcome Stmt} (h : Alike f a b) :
    Alike f a.passing b.passing := by
  obtain ⟨node, ctx, fault⟩ := a
  obtain ⟨node', ctx', fault'⟩ := b
  obtain ⟨sameNode, sameFault, sameCtx⟩ := h
  dsimp only at sameFault
  subst sameFault
  cases fault' with
  | none => exact ⟨sameNode, rfl, sameCtx⟩
  | some fault => exact ⟨sameNode, rfl, sameCtx⟩

/-- What follows on both sides only has to be alike where nothing but what was told can differ. -/
theorem andThen (h : Alike f a b) {g : γ → δ} (following : γ) {analyze : Context → Outcome γ}
    {analyze' : Context → Outcome δ}
    (rest : ∀ ctx ctx', ctx'.untold = ctx.untold → Alike g (analyze ctx) (analyze' ctx')) :
    Alike (Prod.map f g) (a.andThen following analyze) (b.andThen (g following) analyze') := by
  obtain ⟨node, ctx, fault⟩ := a
  obtain ⟨node', ctx', fault'⟩ := b
  obtain ⟨sameNode, sameFault, sameCtx⟩ := h
  dsimp only at sameNode sameFault
  subst sameNode sameFault
  cases fault' with
  | none => exact (rest ctx ctx' sameCtx).map fun _ => rfl
  | some fault => exact ⟨rfl, rfl, sameCtx⟩

end Alike

end Outcome

/-! ## Lists in blocks of their own -/

namespace Stmt

/-- A list in a block of its own, with nothing found and nothing told so far. -/
def alone (owner : Owner) (body : List Stmt) (ctx : Context) : Outcome (List Stmt) :=
  ctx.fresh.within owner (analyzeList body)

/-- A list that is analyzed in a block of its own does what it does alone, and all that is left of
it is what has been found and told. -/
theorem within_analyzeList_eq (owner : Owner) (body : List Stmt) (ctx : Context) :
    ctx.within owner (analyzeList body)
      = ⟨(alone owner body ctx).node,
          ctx.append (alone owner body ctx).ctx.diagnostics (alone owner body ctx).ctx.events,
          (alone owner body ctx).fault⟩ := by
  have extension : ctx.fresh.Extends (alone owner body ctx).ctx :=
    .within (analyzeList_extends body (ctx.fresh.enter owner))
  have stack : (alone owner body ctx).ctx.stack = ctx.stack :=
    stack_within_analyzeList body ctx.fresh owner
  have withPast : ctx.within owner (analyzeList body)
      = (alone owner body ctx).prepend ctx.diagnostics ctx.events := by
    rw [alone, ← Context.within_prepend _ _ _ _ fun ctx => analyzeList_prepend _ _ body ctx,
      Context.prepend_fresh]
  rw [withPast, Outcome.prepend]
  congr 1
  exact Context.eq_append extension.function extension.classes stack rfl rfl

/-- The same of a list that comes to its end. -/
theorem within_analyzeList_of_ended {owner : Owner} {body : List Stmt} {ctx : Context}
    (ended : (alone owner body ctx).fault = none) :
    ctx.within owner (analyzeList body)
      = .done (alone owner body ctx).node (ctx.append
          (alone owner body ctx).ctx.diagnostics (alone owner body ctx).ctx.events) := by
  rw [within_analyzeList_eq, ended]
  rfl

/-- What a list does alone depends on nothing that was found or told. -/
theorem alone_congr {a b : Context} (same : a.fresh = b.fresh) (owner : Owner) (body : List Stmt) :
    alone owner body a = alone owner body b := by
  rw [alone, alone, same]

/-- A list in a block of its own leaves nothing but what was found and told. -/
theorem fresh_within_analyzeList (owner : Owner) (body : List Stmt) (ctx : Context) :
    (ctx.within owner (analyzeList body)).ctx.fresh = ctx.fresh := by
  rw [within_analyzeList_eq, Context.fresh_append]

theorem fault_within_analyzeList (owner : Owner) (body : List Stmt) (ctx : Context) :
    (ctx.within owner (analyzeList body)).fault = (alone owner body ctx).fault := by
  rw [within_analyzeList_eq]

theorem node_within_analyzeList (owner : Owner) (body : List Stmt) (ctx : Context) :
    (ctx.within owner (analyzeList body)).node = (alone owner body ctx).node := by
  rw [within_analyzeList_eq]

/-- What it finds is what it finds alone. -/
theorem foundSince_within_analyzeList (owner : Owner) (body : List Stmt) (ctx : Context) :
    (ctx.within owner (analyzeList body)).ctx.foundSince ctx
      = (alone owner body ctx).ctx.diagnostics := by
  rw [within_analyzeList_eq, Context.foundSince_append]

/-- A list does the same in contexts that differ in their past only. -/
theorem within_analyzeList_congr {a b : Context} (same : a.fresh = b.fresh) (owner : Owner)
    (body : List Stmt) :
    (a.within owner (analyzeList body)).ctx.foundSince a
        = (b.within owner (analyzeList body)).ctx.foundSince b ∧
      (a.within owner (analyzeList body)).fault = (b.within owner (analyzeList body)).fault ∧
      (a.within owner (analyzeList body)).node = (b.within owner (analyzeList body)).node := by
  simp only [foundSince_within_analyzeList, fault_within_analyzeList, node_within_analyzeList,
    alone_congr same, true_and]

/-- A part of a try statement leaves nothing but what was found and told. -/
theorem fresh_analyzePart (part : Option (List Stmt)) (ctx : Context) :
    (analyzePart part ctx).ctx.fresh = ctx.fresh := by
  cases part with
  | none => rw [analyzePart, Outcome.ctx_done]
  | some body => rw [analyzePart, Outcome.ctx_map, fresh_within_analyzeList]

theorem fault_analyzePart_eq_none_iff (part : Option (List Stmt)) (ctx : Context) :
    (analyzePart part ctx).fault = none ↔
      ∀ body ∈ part.toList, (alone .guarded body ctx).fault = none := by
  cases part with
  | none => simp [analyzePart]
  | some body => simp [analyzePart, fault_within_analyzeList]

/-- A part that comes to its end adds what it finds and tells alone. -/
theorem analyzePart_of_ended {part : Option (List Stmt)} {ctx : Context}
    (ended : ∀ body ∈ part.toList, (alone .guarded body ctx).fault = none) :
    analyzePart part ctx
      = .done (part.map fun body => (alone .guarded body ctx).node)
          (ctx.append (part.toList.flatMap fun body => (alone .guarded body ctx).ctx.diagnostics)
            (part.toList.flatMap fun body => (alone .guarded body ctx).ctx.events)) := by
  cases part with
  | none =>
    rw [analyzePart]
    simp
  | some body =>
    rw [analyzePart, within_analyzeList_of_ended (ended body (.head _))]
    simp [Outcome.map_done]

/-- An if statement whose arms come to their ends, as what comes of each arm alone. -/
theorem analyze_ifElse_eq (keyword : Token) (cond : Expr) {onTrue onFalse : List Stmt}
    (ctx : Context) :
    let behind := (cond.analyze ctx).ctx
    let first := alone .branch onTrue behind
    let second := alone .branch onFalse behind
    first.fault = none → second.fault = none →
      (ifElse keyword cond onTrue onFalse).analyze ctx
        = .done (ifElse keyword (cond.analyze ctx).expr first.node second.node)
          (behind.append (first.ctx.diagnostics ++ second.ctx.diagnostics)
            (first.ctx.events ++ second.ctx.events)) := by
  intro behind first second soundTrue soundFalse
  let between := behind.append first.ctx.diagnostics first.ctx.events
  -- Behind the first arm the second one is where it would be without it.
  have soundFalse' : (alone .branch onFalse between).fault = none := soundFalse
  rw [analyze, within_analyzeList_of_ended soundTrue, Outcome.done_andThen,
    within_analyzeList_of_ended soundFalse', Outcome.map_done, Outcome.map_done,
    Outcome.passing_done, Context.append_append]
  rfl

/-- A try statement comes to its end just if each of its parts does so alone. -/
theorem fault_analyze_guarded_eq_none_iff (keyword : Token) (body : List Stmt)
    (caught : Option Token) (handler finalizer : Option (List Stmt)) (ctx : Context) :
    ((guarded keyword body caught handler finalizer).analyze ctx).fault = none ↔
      ∀ part ∈ body :: (handler.toList ++ finalizer.toList),
        (alone .guarded part ctx).fault = none := by
  have behindBody := fresh_within_analyzeList .guarded body ctx
  have behindHandler :=
    (Outcome.fresh_andThen _ handler (fresh_analyzePart handler)).trans behindBody
  rw [analyze, Outcome.fault_passing, Outcome.fault_map, Outcome.fault_andThen_eq_none_iff,
    Outcome.fault_andThen_eq_none_iff, fault_within_analyzeList, fault_analyzePart_eq_none_iff,
    fault_analyzePart_eq_none_iff, List.forall_mem_cons, List.forall_mem_append, and_assoc]
  simp only [alone_congr behindBody, alone_congr behindHandler]

/-- A try statement whose parts come to their ends, as what comes of each part alone. -/
theorem analyze_guarded_eq (keyword : Token) (body : List Stmt) (caught : Option Token)
    (handler finalizer : Option (List Stmt)) (ctx : Context) :
    let parts := body :: (handler.toList ++ finalizer.toList)
    (∀ part ∈ parts, (alone .guarded part ctx).fault = none) →
      (guarded keyword body caught handler finalizer).analyze ctx
        = .done (guarded keyword (alone .guarded body ctx).node caught
            (handler.map fun part => (alone .guarded part ctx).node)
            (finalizer.map fun part => (alone .guarded part ctx).node))
          (ctx.append (parts.flatMap fun part => (alone .guarded part ctx).ctx.diagnostics)
            (parts.flatMap fun part => (alone .guarded part ctx).ctx.events)) := by
  intro parts sound
  obtain ⟨soundBody, sound⟩ := List.forall_mem_cons.mp sound
  obtain ⟨soundHandler, soundFinalizer⟩ := List.forall_mem_append.mp sound
  have elsewhere {part : Option (List Stmt)}
      (h : ∀ body ∈ part.toList, (alone .guarded body ctx).fault = none)
      (found : List Diagnostic) (told : List Event) :
      ∀ body ∈ part.toList, (alone .guarded body (ctx.append found told)).fault = none := h
  rw [analyze, within_analyzeList_of_ended soundBody, Outcome.done_andThen,
    analyzePart_of_ended (elsewhere soundHandler _ _), Outcome.map_done, Outcome.done_andThen,
    Context.append_append, analyzePart_of_ended (elsewhere soundFinalizer _ _), Outcome.map_done,
    Outcome.map_done, Outcome.passing_done, Context.append_append]
  simp only [parts, List.flatMap_cons, List.flatMap_append, List.append_assoc]
  rfl

/-! ## Absent parts -/

/-- The statement with an empty list for each part that is absent, if it is a try statement. -/
def filled : Stmt → Stmt
  | guarded keyword body caught handler finalizer =>
    guarded keyword body caught (some (handler.getD [])) (some (finalizer.getD []))
  | s => s

/-- An absent part is analyzed like an empty one, but that the empty one is told of. -/
theorem alike_analyzePart (part : Option (List Stmt)) {ctx ctx' : Context}
    (same : ctx'.untold = ctx.untold) :
    Outcome.Alike (fun part => some (part.getD [])) (analyzePart part ctx)
      (analyzePart (some (part.getD [])) ctx') := by
  have sameAlone := alone_congr (Context.fresh_of_untold same) .guarded
  cases part with
  | none =>
    have nothing :
        ctx'.within .guarded (analyzeList []) = .done [] (ctx'.enter .guarded).leave := by
      rw [Context.within, analyzeList]
      rfl
    rw [analyzePart, analyzePart, Option.getD_none, nothing]
    exact ⟨rfl, rfl, same⟩
  | some body =>
    rw [Option.getD_some, analyzePart, analyzePart, within_analyzeList_eq, within_analyzeList_eq,
      sameAlone]
    exact ⟨rfl, rfl, Context.untold_append same⟩

/-- An absent part of a try statement is analyzed like an empty one, but for what is told. -/
theorem alike_analyze_filled (s : Stmt) (ctx : Context) :
    Outcome.Alike filled (s.analyze ctx) (s.filled.analyze ctx) := by
  cases s with
  | guarded keyword body caught handler finalizer =>
    rw [filled, analyze, analyze]
    have alikeBody : Outcome.Alike id (ctx.within .guarded (analyzeList body))
      (ctx.within .guarded (analyzeList body)) := ⟨rfl, rfl, rfl⟩
    have alikeHandler := alikeBody.andThen handler fun ctx ctx' => alike_analyzePart handler
    have alikeParts := alikeHandler.andThen finalizer fun ctx ctx' => alike_analyzePart finalizer
    exact .passing (.map alikeParts fun _ => rfl)
  | simple s | breakable keyword label header body | ifElse keyword cond onTrue onFalse =>
    refine ⟨?_, rfl, rfl⟩
    simp [filled, analyze]

/-- **Sibling lists are independent.**  If the arms of an if statement come to their ends where its
condition leaves off, the diagnostics are those of the condition and then those that each arm has
alone; exchanging the arms exchanges these, and changes neither the context otherwise nor what the
analysis fills in.  If a try statement comes to its end, so does each part alone, in the context of
the statement, and the statement finds what its parts find alone and fills in the same; a part that
is absent is like an empty one. -/
theorem siblings_independent (keyword : Token) (ctx : Context) :
    (∀ (cond : Expr) (onTrue onFalse : List Stmt),
      let behind := (cond.analyze ctx).ctx
      let arm (body : List Stmt) := behind.within .branch (analyzeList body)
      let asWritten := (ifElse keyword cond onTrue onFalse).analyze ctx
      let exchanged := (ifElse keyword cond onFalse onTrue).analyze ctx
      let ofCond := behind.foundSince ctx
      let ofTrue := (arm onTrue).ctx.foundSince behind
      let ofFalse := (arm onFalse).ctx.foundSince behind
      (arm onTrue).fault = none → (arm onFalse).fault = none →
        asWritten.fault = none ∧ exchanged.fault = none ∧
        asWritten.ctx.diagnostics = ctx.diagnostics ++ (ofCond ++ ofTrue ++ ofFalse) ∧
        exchanged.ctx.diagnostics = ctx.diagnostics ++ (ofCond ++ ofFalse ++ ofTrue) ∧
        exchanged.ctx.fresh = asWritten.ctx.fresh ∧
        asWritten.node
          = ifElse keyword (cond.analyze ctx).expr (arm onTrue).node (arm onFalse).node ∧
        exchanged.node
          = ifElse keyword (cond.analyze ctx).expr (arm onFalse).node (arm onTrue).node) ∧
    (∀ (body : List Stmt) (caught : Option Token) (handler finalizer : Option (List Stmt)),
      let alone (part : List Stmt) := ctx.within .guarded (analyzeList part)
      let outcome := (guarded keyword body caught handler finalizer).analyze ctx
      let parts := body :: (handler.toList ++ finalizer.toList)
      outcome.fault = none →
        (∀ part ∈ parts, (alone part).fault = none) ∧
        outcome.ctx.diagnostics
          = ctx.diagnostics ++ parts.flatMap (fun part => (alone part).ctx.foundSince ctx) ∧
        outcome.ctx.fresh = ctx.fresh ∧
        outcome.node = guarded keyword (alone body).node caught
          (handler.map fun part => (alone part).node)
          (finalizer.map fun part => (alone part).node)) ∧
    ∀ s : Stmt,
      (s.filled.analyze ctx).node = (s.analyze ctx).node.filled ∧
      (s.filled.analyze ctx).fault = (s.analyze ctx).fault ∧
      (s.filled.analyze ctx).ctx.untold = (s.analyze ctx).ctx.untold := by
  refine ⟨?_, ?_, fun s => ?_⟩
  · intro cond onTrue onFalse behind arm asWritten exchanged ofCond ofTrue ofFalse soundTrue
      soundFalse
    have condition : ctx.diagnostics ++ ofCond = behind.diagnostics :=
      (cond.analyze_extends ctx).append_foundSince
    rw [fault_within_analyzeList] at soundTrue soundFalse
    have whole := analyze_ifElse_eq keyword cond ctx soundTrue soundFalse
    have whole' := analyze_ifElse_eq keyword cond ctx soundFalse soundTrue
    simp only [asWritten, exchanged, ofTrue, ofFalse, arm, whole, whole',
      foundSince_within_analyzeList, node_within_analyzeList]
    refine ⟨rfl, rfl, ?_, ?_, rfl, rfl, rfl⟩
    · rw [List.append_assoc, ← List.append_assoc ctx.diagnostics, condition]
      rfl
    · rw [List.append_assoc, ← List.append_assoc ctx.diagnostics, condition]
      rfl
  · intro body caught handler finalizer alone' outcome parts ended
    have sound := (fault_analyze_guarded_eq_none_iff ..).mp ended
    have whole := analyze_guarded_eq keyword body caught handler finalizer ctx sound
    simp only [outcome, alone', parts, whole, fault_within_analyzeList,
      foundSince_within_analyzeList, node_within_analyzeList]
    exact ⟨sound, rfl, rfl, rfl⟩
  · obtain ⟨node, fault, told⟩ := alike_analyze_filled s ctx
    exact ⟨node, fault, told⟩

/-- A variable that one arm sets is not set in the other, whichever of them comes first.  So each
arm of this statement has the diagnostic that it has alone, and so has each part of the try
statement. -/
theorem siblings_independent_of_assignment :
    let read : Stmt := .simple (.expression (.read (.synthetic "x") .int none))
    let assign : Stmt := .simple (.expression
      (.assign (.synthetic "x") (.value (.synthetic "1") (.typed .int) none) none))
    let undeclared : Stmt := .simple (.expression (.read (.synthetic "y") .int none))
    let cond : Expr := .value (.synthetic "c") (.typed .boolean) none
    let ctx := Context.start default ⟨[("x", .unset)]⟩ default
    let branches (onTrue onFalse : List Stmt) : Outcome Stmt :=
      (ifElse (.synthetic "if") cond onTrue onFalse).analyze ctx
    let attempt := (guarded (.synthetic "try") [assign] none none (some [read])).analyze ctx
    (branches [assign, undeclared] [read]).ctx.diagnostics
        = [⟨.undeclared "y", .synthetic "y"⟩, ⟨.uninitialized "x", .synthetic "x"⟩] ∧
      (branches [read] [assign, undeclared]).ctx.diagnostics
        = [⟨.uninitialized "x", .synthetic "x"⟩, ⟨.undeclared "y", .synthetic "y"⟩] ∧
      attempt.ctx.diagnostics = [⟨.uninitialized "x", .synthetic "x"⟩] := by
  intro read assign undeclared cond ctx branches attempt
  obtain ⟨arms, -, -⟩ := siblings_independent (.synthetic "if") ctx
  obtain ⟨-, parts, -⟩ := siblings_independent (.synthetic "try") ctx
  obtain ⟨-, -, asWritten, exchanged, -⟩ := arms cond [assign, undeclared] [read]
    (by decide +kernel) (by decide +kernel)
  obtain ⟨-, found, -⟩ := parts [assign] none none (some [read]) (by decide +kernel)
  refine ⟨asWritten.trans ?_, exchanged.trans ?_, found.trans ?_⟩
  · decide +kernel
  · decide +kernel
  · decide +kernel

end Stmt

end BodyCheck
