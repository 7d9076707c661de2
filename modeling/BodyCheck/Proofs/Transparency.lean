import BodyCheck.Proofs.Coupling
import BodyCheck.Proofs.Siblings

/-!
# Transparent frames

A jump looks through the frames of if and try statements, and the locals in such a frame are those
around it.  So a list finds the same inside an if or a try statement as it does without, unless it
has cases, which look at the innermost frame and at no other.

## Main definitions

* `BlockStack.destinations` — the open lists that a jump can see.
* `Context.Lockstep` — contexts that only cases and what is told can tell apart.
* `Layer` and `Layer.wrap` — if and try statements around a list, any number of them.
* `Outcome.FindsSame` — the same diagnostics, the same fault and the same constructors.

## Main statements

* `Context.Lockstep.coupling` — contexts in lockstep stay so while both runs do alike.
* `Stmt.analyzeList_lockstep` — a list without cases does alike in lockstep.
* `Layer.analyzeList_wrap` — the layers around a list make no difference to what is found.
* `Stmt.frames_transparent` — all this together.

## Design notes

Entering a transparent frame on one side only keeps the contexts in lockstep.  Inside of the list
both runs enter the same blocks, and there the cases see the same again.
-/

namespace BodyCheck

/-! ## What jumps see -/

/-- Whether a jump may leave the list or name it. -/
def Owner.isBreakable : Owner → Bool
  | breakable .. => true
  | _ => false

/-- The owners of the open lists that a jump may leave or name, the innermost first. -/
def BlockStack.destinations (stack : BlockStack) : List Owner :=
  stack.owners.filter (·.isBreakable)

/-- A jump looks for the block that it may leave among the destinations only. -/
theorem JumpKind.any_mayLeave (kind : JumpKind) (stack : BlockStack) :
    stack.owners.any kind.mayLeave = stack.destinations.any kind.mayLeave := by
  have isBreakable (owner : Owner) :
      (owner.isBreakable && kind.mayLeave owner) = kind.mayLeave owner := by
    cases owner with
    | breakable what label => rfl
    | _ => cases kind <;> rfl
  simp only [BlockStack.destinations, List.any_filter, isBreakable]

/-- Its label is looked for among them as well. -/
theorem Rule.isLabelAround_eq_destinations (name : String) (stack : BlockStack) :
    isLabelAround name stack.owners = isLabelAround name stack.destinations := by
  have isBreakable (owner : Owner) :
      (owner.isBreakable && owner.isLabelled name) = owner.isLabelled name := by
    cases owner <;> rfl
  simp only [isLabelAround, BlockStack.destinations, List.any_filter, isBreakable]

/-! ## Lockstep -/

/-- Two contexts that only cases and what is told can tell apart: their stacks agree but for frames
that jumps do not see. -/
structure Context.Lockstep (a b : Context) : Prop where
  function : a.function = b.function
  classes : a.classes = b.classes
  locals : a.locals = b.locals
  destinations : a.stack.destinations = b.stack.destinations
  diagnostics : a.diagnostics = b.diagnostics

namespace Context.Lockstep

variable {a b : Context}

theorem refl (a : Context) : a.Lockstep a :=
  ⟨rfl, rfl, rfl, rfl, rfl⟩

/-- Contexts stay in lockstep while both runs do alike. -/
theorem coupling : Coupling Lockstep where
  locals h := h.locals
  setLocals h locals :=
    { h with
      locals := by rw [locals_setLocals, locals_setLocals]
      destinations := by
        simp only [Context.setLocals, BlockStack.destinations, BlockStack.owners_setLocals]
        exact h.destinations }
  report h problem token := { h with diagnostics := congrArg (· ++ _) h.diagnostics }
  tell h event event' := { h with }
  enter h owner :=
    { h with
      locals := h.locals
      destinations := by
        simp only [stack_enter, BlockStack.destinations, BlockStack.owners_enter, List.filter_cons]
        rw [← BlockStack.destinations, ← BlockStack.destinations, h.destinations] }
  leave {a b a' b' owner} h inside left right := by
    have leftStack : a'.leave.stack = a.stack := by rw [stack_leave, left.stack]; rfl
    have rightStack : b'.leave.stack = b.stack := by rw [stack_leave, right.stack]; rfl
    exact {
      function := inside.function
      classes := inside.classes
      locals := by rw [Context.locals, leftStack, Context.locals, rightStack]; exact h.locals
      destinations := by rw [leftStack, rightStack]; exact h.destinations
      diagnostics := inside.diagnostics }

/-- Jumps do not see a list that they cannot leave or name. -/
theorem enter_left (h : a.Lockstep b) {owner : Owner} (transparent : owner.isBreakable = false) :
    (a.enter owner).Lockstep b :=
  { h with
    locals := h.locals
    destinations := by
      rw [stack_enter, BlockStack.destinations, BlockStack.owners_enter,
        List.filter_cons_of_neg (Bool.eq_false_iff.mp transparent)]
      exact h.destinations }

/-- All but cases see the same in lockstep. -/
theorem seesSame (h : a.Lockstep b) (s : Simple)
    (sameSubject : ∀ keyword e, s = .caseLabel keyword e → a.SameSubject b) : s.SeesSame a b := by
  cases s with
  | construct target args known =>
    rw [Simple.SeesSame, QualifiedName.resolve, QualifiedName.resolve, h.function, h.classes]
  | ret keyword e => exact congrArg (·.returns) h.function
  | jump kind keyword label =>
    refine ⟨?_, fun name _ => ?_⟩
    · rw [kind.any_mayLeave, h.destinations, ← kind.any_mayLeave]
    · rw [Rule.isLabelAround_eq_destinations, h.destinations, ← Rule.isLabelAround_eq_destinations]
  | caseLabel keyword e => exact sameSubject keyword e rfl
  | _ => trivial

/-- All simple statements do alike in lockstep, as they see the same. -/
theorem doAlike (statements : List Stmt) : Stmt.DoAlike Lockstep statements :=
  fun s _ _ _ h sameSubject => s.analyze_coupled coupling h (h.seesSame s sameSubject)

end Context.Lockstep

open Context (Lockstep)

namespace Stmt

/-- A list without cases does alike in lockstep. -/
theorem analyzeList_lockstep {body : List Stmt}
    (noCase : ∀ keyword e, simple (.caseLabel keyword e) ∉ body) {a b : Context}
    (h : a.Lockstep b) :
    Outcome.Coupled Lockstep (analyzeList body a) (analyzeList body b) :=
  analyzeList_coupled Lockstep.coupling body (Lockstep.doAlike _) a b h
    fun keyword e mem => absurd mem (noCase keyword e)

/-- A list without statements opens a block and leaves it again. -/
theorem within_analyzeList_nil (owner : Owner) (ctx : Context) :
    ctx.within owner (analyzeList []) = .done [] (ctx.enter owner).leave := by
  rw [Context.within, analyzeList]
  rfl

end Stmt

/-! ## Layers -/

/-- An analysis finds the same as that of a list: the same diagnostics, the same fault, and the same
meanings of the constructor invocations, which `held` reads off what was analyzed. -/
structure Outcome.FindsSame {α : Type} (held : α → List (Option Resolution)) (x : Outcome α)
    (y : Outcome (List Stmt)) : Prop where
  diagnostics : x.ctx.diagnostics = y.ctx.diagnostics
  fault : x.fault = y.fault
  resolutions : held x.node = Stmt.resolutionsOfList y.node

namespace Outcome.FindsSame

variable {α β : Type} {held : α → List (Option Resolution)} {x : Outcome α}
  {y : Outcome (List Stmt)}

/-- Analyses in lockstep find the same. -/
theorem of_coupled {x : Outcome (List Stmt)} (h : Coupled Lockstep x y) :
    FindsSame Stmt.resolutionsOfList x y :=
  ⟨h.ctx.diagnostics, h.fault, congrArg Stmt.resolutionsOfList h.node⟩

theorem trans {z : Outcome (List Stmt)} (h : FindsSame held x y)
    (h' : FindsSame Stmt.resolutionsOfList y z) : FindsSame held x z :=
  ⟨h.diagnostics.trans h'.diagnostics, h.fault.trans h'.fault, h.resolutions.trans h'.resolutions⟩

/-- A block finds what is found inside of it. -/
theorem within (owner : Owner) (inner : List Stmt) (ctx : Context) :
    FindsSame Stmt.resolutionsOfList (ctx.within owner (Stmt.analyzeList inner))
      (Stmt.analyzeList inner (ctx.enter owner)) :=
  ⟨rfl, rfl, rfl⟩

theorem map (h : FindsSame held x y) {f : α → β} {held' : β → List (Option Resolution)}
    (same : ∀ node, held' (f node) = held node) : FindsSame held' (x.map f) y :=
  ⟨h.diagnostics, h.fault, (same x.node).trans h.resolutions⟩

theorem passing {x : Outcome Stmt} (h : FindsSame Stmt.resolutions x y) :
    FindsSame Stmt.resolutions x.passing y := by
  obtain ⟨node, ctx, _ | fault⟩ := x
  · exact h
  · exact ⟨h.diagnostics, h.fault, h.resolutions⟩

/-- What follows adds nothing if it is a list without statements, or none at all. -/
theorem andThen (h : FindsSame held x y) {following : β} {analyze : Context → Outcome β}
    {behind : Context → Context} (ended : ∀ ctx, analyze ctx = .done following (behind ctx))
    (silent : ∀ ctx, (behind ctx).diagnostics = ctx.diagnostics)
    (others : β → List (Option Resolution)) (nothing : others following = []) :
    FindsSame (fun nodes => held nodes.1 ++ others nodes.2) (x.andThen following analyze) y := by
  have resolutions : held x.node ++ others following = Stmt.resolutionsOfList y.node := by
    rw [nothing, List.append_nil, h.resolutions]
  obtain ⟨node, ctx, _ | fault⟩ := x
  · rw [Outcome.andThen, ended]
    exact ⟨(silent ctx).trans h.diagnostics, h.fault, resolutions⟩
  · exact ⟨h.diagnostics, h.fault, resolutions⟩

end Outcome.FindsSame

/-- An if or a try statement around a list that has nothing in its other lists: a try statement
without catch and finally, or an if statement with the list as one of its arms. -/
inductive Layer
  | guarded (keyword : Token) (caught : Option Token)
  | onTrue (keyword : Token) (cond : Expr)
  | onFalse (keyword : Token) (cond : Expr)

namespace Layer

/-- The statement around a list. -/
def around (body : List Stmt) : Layer → Stmt
  | guarded keyword caught => .guarded keyword body caught none none
  | onTrue keyword cond => .ifElse keyword cond body []
  | onFalse keyword cond => .ifElse keyword cond [] body

/-- The condition of the statement. -/
def cond? : Layer → Option Expr
  | guarded .. => none
  | onTrue _ cond | onFalse _ cond => some cond

/-- A list inside of several layers, the outermost first. -/
def wrap : List Layer → List Stmt → List Stmt
  | [], body => body
  | layer :: layers, body => [layer.around (wrap layers body)]

/-- The conditions of several layers, the outermost first. -/
def conds (layers : List Layer) : List Expr :=
  layers.flatMap (·.cond?.toList)

open Outcome (FindsSame)

/-- One layer: inside of it the list starts from a context that is in lockstep with the one behind
the condition, and what the list finds there is all that is found. -/
theorem exists_findsSame_around (layer : Layer) (inner : List Stmt) {a b : Context}
    (h : a.Lockstep b) :
    ∃ c, c.Lockstep (Expr.analyzeEach layer.cond?.toList b) ∧
      FindsSame Stmt.resolutionsOfList (Stmt.analyzeList [layer.around inner] a)
        (Stmt.analyzeList inner c) := by
  have alone (s : Stmt) : Stmt.resolutionsOfList [s] = s.resolutions := List.append_nil _
  cases layer with
  | guarded keyword caught =>
    refine ⟨a.enter .guarded, h.enter_left rfl, ?_⟩
    have absent (ctx : Context) : Stmt.analyzePart none ctx = .done none ctx := by
      rw [Stmt.analyzePart]
    have body := FindsSame.within .guarded inner a
    have withHandler := body.andThen absent (fun _ => rfl) Stmt.resolutionsOfPart rfl
    have parts := withHandler.andThen absent (fun _ => rfl) Stmt.resolutionsOfPart rfl
    rw [around, Stmt.analyzeList_singleton, Stmt.analyze]
    exact .map (.passing (.map parts fun nodes => rfl)) alone
  | onTrue keyword cond =>
    obtain ⟨-, -, behind⟩ := cond.analyze_coupled Lockstep.coupling h
    refine ⟨(cond.analyze a).ctx.enter .branch, behind.enter_left rfl, ?_⟩
    have arm := FindsSame.within .branch inner (cond.analyze a).ctx
    have arms := arm.andThen (Stmt.within_analyzeList_nil .branch) (fun _ => rfl)
      Stmt.resolutionsOfList rfl
    rw [around, Stmt.analyzeList_singleton, Stmt.analyze]
    exact .map (.passing (.map arms fun nodes => rfl)) alone
  | onFalse keyword cond =>
    obtain ⟨-, -, behind⟩ := cond.analyze_coupled Lockstep.coupling h
    -- The first arm is empty, and all that is left of it is that it has been told of.
    let between := ((cond.analyze a).ctx.enter .branch).leave
    have lockstep : between.Lockstep (cond.analyze b).ctx := { behind with }
    refine ⟨between.enter .branch, lockstep.enter_left rfl, ?_⟩
    rw [around, Stmt.analyzeList_singleton, Stmt.analyze, Stmt.within_analyzeList_nil]
    exact .map (.passing (.map (FindsSame.within .branch inner between) fun node => rfl)) alone

/-- Any number of layers around a list without cases make no difference to what is found behind
their conditions. -/
theorem analyzeList_wrap {body : List Stmt}
    (noCase : ∀ keyword e, .simple (.caseLabel keyword e) ∉ body) (layers : List Layer)
    {a b : Context} (h : a.Lockstep b) :
    FindsSame Stmt.resolutionsOfList (Stmt.analyzeList (wrap layers body) a)
      (Stmt.analyzeList body (Expr.analyzeEach (conds layers) b)) := by
  induction layers generalizing a b with
  | nil => exact .of_coupled (Stmt.analyzeList_lockstep noCase h)
  | cons layer layers ih =>
    obtain ⟨c, inside, same⟩ := layer.exists_findsSame_around (wrap layers body) h
    have conditions : Expr.analyzeEach (conds (layer :: layers)) b
        = Expr.analyzeEach (conds layers) (Expr.analyzeEach layer.cond?.toList b) :=
      List.foldl_append
    rw [wrap, conditions]
    exact same.trans (ih inside)

end Layer

namespace Stmt

/-- In a frame that jumps do not see, a list without cases does what it does without the frame. -/
theorem within_analyzeList_of_transparent {body : List Stmt}
    (noCase : ∀ keyword e, simple (.caseLabel keyword e) ∉ body) (owner : Owner)
    (transparent : owner.isBreakable = false) (ctx : Context) :
    let inside := ctx.within owner (analyzeList body)
    let direct := analyzeList body ctx
    inside.ctx.diagnostics = direct.ctx.diagnostics ∧ inside.fault = direct.fault ∧
      inside.node = direct.node := by
  obtain ⟨node, fault, behind⟩ :=
    analyzeList_lockstep noCase ((Lockstep.refl ctx).enter_left transparent)
  exact ⟨behind.diagnostics, fault, node⟩

/-- **Frames of if and try statements are transparent.**  In the frame of a try statement a list
without cases of its own has the diagnostics and the fault that it has without the frame, and the
same is filled in.  The same holds for each arm of an if statement, whatever the other arm is,
compared with the list directly behind the condition.  And any number of if and try statements
around the list, which have nothing in their other lists, make no difference to the diagnostics, the
fault and the constructors that are found. -/
theorem frames_transparent (body : List Stmt)
    (noCase : ∀ keyword e, simple (.caseLabel keyword e) ∉ body) (ctx : Context) :
    (let inside := ctx.within .guarded (analyzeList body)
      let direct := analyzeList body ctx
      inside.ctx.diagnostics = direct.ctx.diagnostics ∧ inside.fault = direct.fault ∧
        inside.node = direct.node) ∧
    (∀ (cond : Expr) (other : List Stmt),
      let behind := (cond.analyze ctx).ctx
      let direct := analyzeList body behind
      let onTrue := behind.within .branch (analyzeList body)
      let between := (behind.within .branch (analyzeList other)).ctx
      let onFalse := between.within .branch (analyzeList body)
      onTrue.ctx.diagnostics = direct.ctx.diagnostics ∧ onTrue.fault = direct.fault ∧
        onTrue.node = direct.node ∧
      onFalse.ctx.foundSince between = direct.ctx.foundSince behind ∧
        onFalse.fault = direct.fault ∧ onFalse.node = direct.node) ∧
    ∀ layers : List Layer,
      let wrapped := analyzeList (Layer.wrap layers body) ctx
      let direct := analyzeList body (Expr.analyzeEach (Layer.conds layers) ctx)
      wrapped.ctx.diagnostics = direct.ctx.diagnostics ∧ wrapped.fault = direct.fault ∧
        resolutionsOfList wrapped.node = resolutionsOfList direct.node := by
  refine ⟨within_analyzeList_of_transparent noCase .guarded rfl ctx, ?_, fun layers => ?_⟩
  · intro cond other behind direct onTrue between onFalse
    obtain ⟨diagnostics, fault, node⟩ :=
      within_analyzeList_of_transparent noCase .branch rfl behind
    -- Behind the other arm the list does what it does in its place.
    obtain ⟨found, fault', node'⟩ :=
      within_analyzeList_congr (fresh_within_analyzeList .branch other behind) .branch body
    have sinceCond : onTrue.ctx.foundSince behind = direct.ctx.foundSince behind :=
      congrArg (List.drop behind.diagnostics.length) diagnostics
    exact ⟨diagnostics, fault, node, found.trans sinceCond, fault'.trans fault, node'.trans node⟩
  · obtain ⟨diagnostics, fault, resolutions⟩ :=
      Layer.analyzeList_wrap noCase layers (Lockstep.refl ctx)
    exact ⟨diagnostics, fault, resolutions⟩

/-- In a loop, with four frames around them, a break to the label of the loop and a case in a switch
of its own are found right, a variable that the outer condition sets is set, a class is found, a
continue to an unknown label is reported and an assertion of nothing is at fault, as they are without
the frames. -/
theorem frames_transparent_of_nest :
    let one : Expr := .value (.synthetic "1") (.typed .int) none
    let a : ClassDef := .root "A" []
    let body : List Stmt :=
      [.breakable (.synthetic "switch") none (.switch one)
          [.simple (.caseLabel (.synthetic "case") one)],
        .simple (.construct ⟨.synthetic "A", none⟩ [] none),
        .simple (.expression (.read (.synthetic "x") .int none)),
        .simple (.jump .continues (.synthetic "continue") (some (.synthetic "elsewhere"))),
        .simple (.jump .breaks (.synthetic "break") (some (.synthetic "outer"))),
        .simple (.assert (.synthetic "assert") [])]
    let ctx := (Context.start default ⟨[("x", .unset)]⟩ (Registry.empty.register a)).enter
      (.breakable .whileLoop (some (.synthetic "outer")))
    let layers : List Layer := [.onTrue (.synthetic "if") (.assign (.synthetic "x") one none),
      .guarded (.synthetic "try") none, .onFalse (.synthetic "if") one,
      .guarded (.synthetic "try") none]
    let wrapped := analyzeList (Layer.wrap layers body) ctx
    (∀ keyword e, simple (.caseLabel keyword e) ∉ body) ∧
      wrapped.ctx.diagnostics = [⟨.unknownLabel "elsewhere", .synthetic "elsewhere"⟩] ∧
      wrapped.fault = some ⟨.emptyAssertion, .synthetic "assert"⟩ ∧
      resolutionsOfList wrapped.node = [some ⟨a, none⟩] := by
  intro one a body ctx layers wrapped
  have noCase : ∀ keyword e, simple (.caseLabel keyword e) ∉ body := by
    intro keyword e mem
    simp [body] at mem
  obtain ⟨-, -, wraps⟩ := frames_transparent body noCase ctx
  obtain ⟨diagnostics, fault, resolutions⟩ := wraps layers
  refine ⟨noCase, diagnostics.trans ?_, fault.trans ?_, resolutions.trans ?_⟩
  · decide +kernel
  · decide +kernel
  · decide +kernel

end Stmt

end BodyCheck
