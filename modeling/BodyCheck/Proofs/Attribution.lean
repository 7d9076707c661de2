import BodyCheck.Proofs.Visits

/-!
# Attribution

Everything that an analysis finds it finds at a visit, by the checks of the visited statement
itself, and in the order of the visits.

## Main definitions

* `Event.isPassage` — the events about blocks and faults, which tell of the way of an analysis.
* `Stmt.checkOwn` — what the analysis of a statement does before it turns to the lists inside.
* `Visit.found`, `Visit.told` — what is found and told by the checks of the visited statement.
* `Context.Attributes` — all that is found and told comes from the visits.

## Main statements

* `Visit.checkOwn_eq` — the checks of a statement add to the context what is found and told there.
* `Stmt.attributes_visitsOfList` — the analysis of a list finds just what is found at its visits.

## Design notes

What is found at a visit is what would be found there if nothing had been found before; that the
past makes no difference is `Stmt.checkOwn_prepend`.
-/

namespace BodyCheck

/-- Whether the event tells of the way of an analysis through a tree: of a block that is entered or
left, or of a fault that passes. -/
def Event.isPassage : Event → Bool
  | faultPassed .. | blockEntered _ | blockLeft _ => true
  | _ => false

namespace Context

/-- What has been told, apart from the way through the tree. -/
def remarks (ctx : Context) : List Event :=
  ctx.events.filter (!·.isPassage)

/-- The same context with nothing found and nothing told so far. -/
def fresh (ctx : Context) : Context :=
  { ctx with diagnostics := [], events := [] }

/-- Setting aside what has been found and told, and putting it in front again, changes nothing. -/
@[simp] theorem prepend_fresh (ctx : Context) :
    ctx.fresh.prepend ctx.diagnostics ctx.events = ctx := by
  simp [fresh, prepend]

/-- What is told about the way of an analysis is no remark. -/
theorem remarks_tell {ctx : Context} {event : Event} (h : event.isPassage = true) :
    (ctx.tell event).remarks = ctx.remarks := by
  simp [remarks, tell, h]

/-- Opening a block is told about the way. -/
theorem remarks_enter (ctx : Context) (owner : Owner) :
    (ctx.enter owner).remarks = ctx.remarks := by
  rw [enter, remarks_tell rfl]
  rfl

theorem remarks_leave (ctx : Context) : ctx.leave.remarks = ctx.remarks := by
  rw [leave, remarks_tell rfl]
  rfl

/-- Remarks of earlier come before those of later. -/
theorem remarks_prepend (ctx : Context) (diagnostics : List Diagnostic) (events : List Event) :
    (ctx.prepend diagnostics events).remarks = events.filter (!·.isPassage) ++ ctx.remarks :=
  List.filter_append ..

end Context

/-! ## The checks of a statement itself -/

/-- What the analysis of a statement does before it turns to the lists inside the statement. -/
def Stmt.checkOwn : Stmt → Context → Context
  | simple s, ctx => (s.analyze ctx).ctx
  | breakable keyword _ header _, ctx => (header.analyze keyword ctx).ctx
  | ifElse _ cond _ _, ctx => (cond.analyze ctx).ctx
  | guarded .., ctx => ctx

/-- The checks of a statement do the same whatever was found before. -/
theorem Stmt.checkOwn_prepend (s : Stmt) (ctx : Context) (diagnostics : List Diagnostic)
    (events : List Event) :
    s.checkOwn (ctx.prepend diagnostics events)
      = (s.checkOwn ctx).prepend diagnostics events := by
  cases s with
  | simple s => rw [checkOwn, Simple.analyze_prepend]; rfl
  | breakable keyword label header body => rw [checkOwn, Header.analyze_prepend]; rfl
  | ifElse keyword cond onTrue onFalse => rw [checkOwn, Expr.analyze_prepend]; rfl
  | guarded => rfl

namespace Visit

/-- What the checks of the visited statement find. -/
def found (v : Visit) : List Diagnostic :=
  (v.stmt.checkOwn v.ctx.fresh).diagnostics

/-- What is told in the course of the checks of the visited statement. -/
def told (v : Visit) : List Event :=
  (v.stmt.checkOwn v.ctx.fresh).remarks

/-- The checks of a visited statement depend on nothing that was found or told before. -/
theorem checkOwn_eq (v : Visit) :
    v.stmt.checkOwn v.ctx
      = (v.stmt.checkOwn v.ctx.fresh).prepend v.ctx.diagnostics v.ctx.events := by
  rw [← Stmt.checkOwn_prepend, Context.prepend_fresh]

theorem diagnostics_checkOwn (v : Visit) :
    (v.stmt.checkOwn v.ctx).diagnostics = v.ctx.diagnostics ++ v.found := by
  rw [checkOwn_eq]
  rfl

end Visit

/-! ## Attribution to visits -/

/-- What is found and told on the way from `before` to `after` is found and told at the visits, in
their order. -/
structure Context.Attributes (before : Context) (visits : List Visit) (after : Context) : Prop where
  found : after.diagnostics = before.diagnostics ++ visits.flatMap Visit.found
  told : after.remarks = before.remarks ++ visits.flatMap Visit.told

namespace Context.Attributes

variable {a b c : Context} {p q : List Visit}

/-- Nothing is found or told without a visit. -/
theorem nil (a : Context) : a.Attributes [] a where
  found := (List.append_nil _).symm
  told := (List.append_nil _).symm

/-- The checks of a statement are made at the visit to it. -/
theorem own (v : Visit) : v.ctx.Attributes [v] (v.stmt.checkOwn v.ctx) where
  found := by rw [v.diagnostics_checkOwn, List.flatMap_singleton]
  told := by
    rw [v.checkOwn_eq, remarks_prepend, List.flatMap_singleton]
    rfl

/-- Visits that follow one another add what they find and tell in this order. -/
theorem append (hp : a.Attributes p b) (hq : b.Attributes q c) : a.Attributes (p ++ q) c where
  found := by rw [hq.found, hp.found, List.flatMap_append, List.append_assoc]
  told := by rw [hq.told, hp.told, List.flatMap_append, List.append_assoc]

/-- What is told about the way is told by no visit. -/
theorem tell (h : a.Attributes p b) {event : Event} (passage : event.isPassage = true) :
    a.Attributes p (b.tell event) where
  found := h.found
  told := (remarks_tell passage).trans h.told

/-- In a block the visits find and tell what they do outside of it. -/
theorem within {α : Type} {owner : Owner} {analyze : Context → Outcome α}
    (h : (a.enter owner).Attributes p (analyze (a.enter owner)).ctx) (step : Nat × Slot) :
    a.Attributes (p.map (.inside step)) (a.within owner analyze).ctx where
  found := by
    rw [List.flatMap_map]
    exact h.found
  told := by
    show (analyze (a.enter owner)).ctx.leave.remarks = _
    rw [remarks_leave, h.told, remarks_enter, List.flatMap_map]
    rfl

/-- A fault that passes a statement is told about the way. -/
theorem passing {outcome : Outcome Stmt} (h : a.Attributes p outcome.ctx) :
    a.Attributes p outcome.passing.ctx := by
  obtain ⟨node, ctx, _ | fault⟩ := outcome
  · exact h
  · exact h.tell rfl

/-- Behind a fault nothing is visited, found or told. -/
theorem andThen {α β : Type} {outcome : Outcome α} {analyze : Context → Outcome β}
    {visits : Context → List Visit} (h : a.Attributes p outcome.ctx) (following : β)
    (rest : ∀ ctx : Context, ctx.Attributes (visits ctx) (analyze ctx).ctx) :
    a.Attributes (p ++ outcome.behind visits) (outcome.andThen following analyze).ctx := by
  obtain ⟨node, ctx, _ | fault⟩ := outcome
  · exact h.append (rest ctx)
  · exact h.append (.nil ctx)

end Context.Attributes

namespace Stmt

open Context.Attributes

mutual

/-- All that the analysis of a statement finds and tells it finds and tells at its visits. -/
theorem attributes_visits (i : Nat) : (s : Stmt) → (ctx : Context) →
    ctx.Attributes (s.visits i ctx) (s.analyze ctx).ctx
  | simple s, ctx => by
    rw [visits, analyze]
    have alone : ctx.Attributes [⟨⟨[], i⟩, simple s, ctx⟩] ((s.analyze ctx).map simple).ctx :=
      own ⟨⟨[], i⟩, simple s, ctx⟩
    exact alone.passing
  | breakable keyword label header body, ctx => by
    rw [visits, analyze]
    have inside := within (attributes_visitsOfList 0 body
      ((header.analyze keyword ctx).ctx.enter (.breakable (header.analyze keyword ctx).kind label)))
      (i, .body)
    exact passing ((own ⟨⟨[], i⟩, breakable keyword label header body, ctx⟩).append inside)
  | ifElse keyword cond onTrue onFalse, ctx => by
    rw [visits, analyze]
    have insideTrue := within
      (attributes_visitsOfList 0 onTrue ((cond.analyze ctx).ctx.enter .branch)) (i, .onTrue)
    have insideFalse (ctx : Context) := within
      (attributes_visitsOfList 0 onFalse (ctx.enter .branch)) (i, .onFalse)
    exact passing ((own ⟨⟨[], i⟩, ifElse keyword cond onTrue onFalse, ctx⟩).append
      (insideTrue.andThen onFalse insideFalse))
  | guarded keyword body caught handler finalizer, ctx => by
    rw [visits, analyze]
    have insideBody := within (attributes_visitsOfList 0 body (ctx.enter .guarded)) (i, .body)
    exact passing ((own ⟨⟨[], i⟩, guarded keyword body caught handler finalizer, ctx⟩).append
      ((insideBody.andThen handler (attributes_visitsOfPart _ handler)).andThen finalizer
        (attributes_visitsOfPart _ finalizer)))

/-- The analysis of a list finds just what is found at the visits. -/
theorem attributes_visitsOfList (i : Nat) : (body : List Stmt) → (ctx : Context) →
    ctx.Attributes (visitsOfList i body ctx) (analyzeList body ctx).ctx
  | [], ctx => by
    rw [visitsOfList, analyzeList]
    exact .nil ctx
  | s :: rest, ctx => by
    rw [visitsOfList, analyzeList, Outcome.ctx_map]
    exact (attributes_visits i s ctx).andThen rest (attributes_visitsOfList (i + 1) rest)

theorem attributes_visitsOfPart (step : Nat × Slot) : (part : Option (List Stmt)) →
    (ctx : Context) → ctx.Attributes (visitsOfPart step part ctx) (analyzePart part ctx).ctx
  | none, ctx => by
    rw [visitsOfPart, analyzePart]
    exact .nil ctx
  | some body, ctx => by
    rw [visitsOfPart, analyzePart, Outcome.ctx_map]
    exact within (attributes_visitsOfList 0 body _) step

end

end Stmt

end BodyCheck
