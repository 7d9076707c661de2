import BodyCheck.Proofs.Uses

/-!
# Visits

The statements that an analysis comes to, in the order in which it comes to them, each with its
site in the tree and the context it is analyzed in.

## Main definitions

* `Site` — where a statement stands in a body.
* `Visit` — a statement that an analysis comes to.
* `Stmt.visits`, `Stmt.visitsOfList` — the visits of an analysis.
* `Stmt.sites`, `Stmt.sitesOfList` — the sites of all statements of a tree.
* `Stmt.ownersAt` — the owners of the lists around a place.

## Main statements

* `Stmt.goesThrough_visitsOfList` — the visits go through the sites in order, and through all of
  them unless there is a fault.
* `Stmt.standsIn_of_mem_visitsOfList` — a visit is to the statement at its site, and the open lists
  are those around the site.

## Design notes

A statement is visited before the statements inside it, because its own checks come first.  The
visits end where a fault is raised, and only there.

The type of the subject of a switch is not written in the tree but found by the analysis, so owners
are compared without it.
-/

namespace BodyCheck

/-- Where a statement stands: in which list, and at which index of it. -/
@[ext]
structure Site where
  place : Place
  index : Nat
deriving DecidableEq, Repr

/-- The site as it is seen from the list around the statement that its list belongs to. -/
def Site.inside (step : Nat × Slot) (site : Site) : Site :=
  { site with place := step :: site.place }

/-- A statement that an analysis comes to. -/
structure Visit where
  site : Site
  /-- The statement, as it is before its analysis. -/
  stmt : Stmt
  /-- The context in which its analysis begins. -/
  ctx : Context

namespace Visit

/-- The visit as it is seen from the list around the statement that its list belongs to. -/
def inside (step : Nat × Slot) (v : Visit) : Visit :=
  { v with site := v.site.inside step }

end Visit

/-- The part of a list that belongs to what follows an analysis: nothing if there was a fault. -/
def Outcome.behind {α β : Type} (outcome : Outcome α) (list : Context → List β) : List β :=
  match outcome.fault with
  | some _ => []
  | none => list outcome.ctx

/-- What comes behind an analysis comes only if there is no fault. -/
theorem Outcome.mem_of_mem_behind {α β : Type} {outcome : Outcome α} {list : Context → List β}
    {b : β} (h : b ∈ outcome.behind list) : b ∈ list outcome.ctx := by
  unfold behind at h
  split at h
  · cases h
  · exact h

namespace Stmt

mutual

/-- The visits to the statement at the given index of a list and to the statements inside it. -/
def visits (i : Nat) : Stmt → Context → List Visit
  | simple s, ctx => [⟨⟨[], i⟩, simple s, ctx⟩]
  | breakable keyword label header body, ctx =>
    let opened := header.analyze keyword ctx
    ⟨⟨[], i⟩, breakable keyword label header body, ctx⟩ ::
      (visitsOfList 0 body (opened.ctx.enter (.breakable opened.kind label))).map
        (.inside (i, .body))
  | ifElse keyword cond onTrue onFalse, ctx =>
    let cond' := cond.analyze ctx
    ⟨⟨[], i⟩, ifElse keyword cond onTrue onFalse, ctx⟩ ::
      ((visitsOfList 0 onTrue (cond'.ctx.enter .branch)).map (.inside (i, .onTrue))
        ++ (cond'.ctx.within .branch (analyzeList onTrue)).behind fun ctx =>
          (visitsOfList 0 onFalse (ctx.enter .branch)).map (.inside (i, .onFalse)))
  | guarded keyword body caught handler finalizer, ctx =>
    let guardedBody := ctx.within .guarded (analyzeList body)
    ⟨⟨[], i⟩, guarded keyword body caught handler finalizer, ctx⟩ ::
      ((visitsOfList 0 body (ctx.enter .guarded)).map (.inside (i, .body))
        ++ guardedBody.behind (visitsOfPart (i, .handler) handler)
        ++ (guardedBody.andThen handler (analyzePart handler)).behind
          (visitsOfPart (i, .finalizer) finalizer))

/-- The visits to a list whose first statement has the given index. -/
def visitsOfList (i : Nat) : List Stmt → Context → List Visit
  | [], _ => []
  | s :: rest, ctx => s.visits i ctx ++ (s.analyze ctx).behind (visitsOfList (i + 1) rest)

/-- The visits to a part of a try statement that may be absent. -/
def visitsOfPart (step : Nat × Slot) : Option (List Stmt) → Context → List Visit
  | none, _ => []
  | some body, ctx => (visitsOfList 0 body (ctx.enter .guarded)).map (.inside step)

end

/-! ## Sites -/

mutual

/-- The sites of the statement at the given index of a list and of the statements inside it, in the
order in which they are written. -/
def sites (i : Nat) : Stmt → List Site
  | simple _ => [⟨[], i⟩]
  | breakable _ _ _ body => ⟨[], i⟩ :: (sitesOfList 0 body).map (.inside (i, .body))
  | ifElse _ _ onTrue onFalse =>
    ⟨[], i⟩ :: ((sitesOfList 0 onTrue).map (.inside (i, .onTrue))
      ++ (sitesOfList 0 onFalse).map (.inside (i, .onFalse)))
  | guarded _ body _ handler finalizer =>
    ⟨[], i⟩ :: ((sitesOfList 0 body).map (.inside (i, .body))
      ++ sitesOfPart (i, .handler) handler ++ sitesOfPart (i, .finalizer) finalizer)

/-- The sites in a list whose first statement has the given index. -/
def sitesOfList (i : Nat) : List Stmt → List Site
  | [] => []
  | s :: rest => s.sites i ++ sitesOfList (i + 1) rest

/-- The sites in a part of a try statement that may be absent. -/
def sitesOfPart (step : Nat × Slot) : Option (List Stmt) → List Site
  | none => []
  | some body => (sitesOfList 0 body).map (.inside step)

end

end Stmt

/-- The visits of an analysis go through the sites in order, and if the analysis comes to its end,
through all of them. -/
structure GoesThrough (fault : Option Fault) (visits : List Visit) (sites : List Site) : Prop where
  inOrder : visits.map Visit.site <+: sites
  toTheEnd : fault = none → visits.map Visit.site = sites

namespace GoesThrough

variable {α β : Type} {fault : Option Fault} {visits : List Visit} {sites more : List Site}

/-- Seen from the list around, an analysis goes through the same sites. -/
theorem inside (h : GoesThrough fault visits sites) (step : Nat × Slot) :
    GoesThrough fault (visits.map (.inside step)) (sites.map (.inside step)) := by
  have outside : (visits.map (Visit.inside step)).map Visit.site
      = (visits.map Visit.site).map (Site.inside step) := by
    rw [List.map_map, List.map_map]
    rfl
  constructor
  · rw [outside]
    exact h.inOrder.map _
  · intro ended
    rw [outside, h.toTheEnd ended]

theorem cons (h : GoesThrough fault visits sites) (v : Visit) :
    GoesThrough fault (v :: visits) (v.site :: sites) where
  inOrder := (List.prefix_cons_inj _).2 h.inOrder
  toTheEnd ended := congrArg (v.site :: ·) (h.toTheEnd ended)

/-- What follows a fault is not visited. -/
theorem andThen {outcome : Outcome α} (h : GoesThrough outcome.fault visits sites) (following : β)
    {analyze : Context → Outcome β} {later : Context → List Visit}
    (rest : ∀ ctx, GoesThrough (analyze ctx).fault (later ctx) more) :
    GoesThrough (outcome.andThen following analyze).fault (visits ++ outcome.behind later)
      (sites ++ more) := by
  obtain ⟨node, ctx, _ | raised⟩ := outcome
  · have first : visits.map Visit.site = sites := h.toTheEnd rfl
    constructor
    · rw [List.map_append, first]
      exact (List.prefix_append_right_inj _).2 (rest ctx).inOrder
    · intro ended
      rw [List.map_append, first]
      exact congrArg (sites ++ ·) ((rest ctx).toTheEnd ended)
  · constructor
    · have nothing : visits ++ (⟨node, ctx, some raised⟩ : Outcome α).behind later = visits :=
        List.append_nil _
      rw [nothing]
      exact h.inOrder.trans (List.prefix_append ..)
    · intro ended
      cases ended

end GoesThrough

@[simp] theorem Outcome.fault_passing (outcome : Outcome Stmt) :
    outcome.passing.fault = outcome.fault := by
  obtain ⟨node, ctx, _ | fault⟩ := outcome <;> rfl

namespace Stmt

open GoesThrough

theorem goesThrough_within (body : List Stmt)
    (h : ∀ ctx, GoesThrough (analyzeList body ctx).fault (visitsOfList 0 body ctx)
      (sitesOfList 0 body)) (ctx : Context) (owner : Owner) (step : Nat × Slot) :
    GoesThrough (ctx.within owner (analyzeList body)).fault
      ((visitsOfList 0 body (ctx.enter owner)).map (.inside step))
      ((sitesOfList 0 body).map (.inside step)) :=
  (h _).inside step

mutual

/-- The analysis of a statement goes through its own site and then through those inside it. -/
theorem goesThrough_visits (i : Nat) : (s : Stmt) → (ctx : Context) →
    GoesThrough (s.analyze ctx).fault (s.visits i ctx) (s.sites i)
  | simple s, ctx => by
    rw [visits, sites]
    exact ⟨List.prefix_rfl, fun _ => rfl⟩
  | breakable keyword label header body, ctx => by
    rw [analyze, visits, sites, Outcome.fault_passing]
    exact cons (goesThrough_within body (goesThrough_visitsOfList 0 body) _ _ _) _
  | ifElse keyword cond onTrue onFalse, ctx => by
    rw [analyze, visits, sites, Outcome.fault_passing]
    exact cons (andThen (goesThrough_within onTrue (goesThrough_visitsOfList 0 onTrue) _ .branch _)
      onFalse fun ctx =>
        goesThrough_within onFalse (goesThrough_visitsOfList 0 onFalse) ctx .branch _)
      _
  | guarded keyword body caught handler finalizer, ctx => by
    rw [analyze, visits, sites, Outcome.fault_passing]
    have inside := goesThrough_within body (goesThrough_visitsOfList 0 body) ctx .guarded (i, .body)
    exact cons ((inside.andThen handler (goesThrough_visitsOfPart _ handler)).andThen finalizer
      (goesThrough_visitsOfPart _ finalizer)) _

/-- The visits to a list go through its sites in order, and through all of them if the analysis
comes to its end. -/
theorem goesThrough_visitsOfList (i : Nat) : (body : List Stmt) → (ctx : Context) →
    GoesThrough (analyzeList body ctx).fault (visitsOfList i body ctx) (sitesOfList i body)
  | [], ctx => by
    rw [visitsOfList, sitesOfList]
    exact ⟨List.prefix_rfl, fun _ => rfl⟩
  | s :: rest, ctx => by
    rw [analyzeList, visitsOfList, sitesOfList]
    exact (goesThrough_visits i s ctx).andThen rest (goesThrough_visitsOfList (i + 1) rest)

theorem goesThrough_visitsOfPart (step : Nat × Slot) : (part : Option (List Stmt)) →
    (ctx : Context) →
    GoesThrough (analyzePart part ctx).fault (visitsOfPart step part ctx) (sitesOfPart step part)
  | none, ctx => by
    rw [visitsOfPart, sitesOfPart]
    exact ⟨List.prefix_rfl, fun _ => rfl⟩
  | some body, ctx => by
    rw [analyzePart, visitsOfPart, sitesOfPart]
    exact goesThrough_within body (goesThrough_visitsOfList 0 body) _ _ step

end

end Stmt

/-! ## Where visits stand -/

/-- The kind of statement that a header belongs to; nothing is known of the subject of a switch. -/
def Header.kind : Header → Breakable
  | doWhile _ => .doWhile
  | forIn .. => .forIn
  | forLoop .. => .forLoop
  | whileLoop _ => .whileLoop
  | switch _ => .switch none

/-- The owner as far as it is written in the tree: without the type of the subject of a switch. -/
def Owner.asWritten : Owner → Owner
  | breakable (.switch _) label => breakable (.switch none) label
  | owner => owner

/-- What is written of a loop or switch is in its header, and no analysis changes it. -/
theorem Header.asWritten_kind_analyze (keyword : Token) (header : Header) (ctx : Context)
    (label : Option Token) :
    (Owner.breakable (header.analyze keyword ctx).kind label).asWritten
      = .breakable header.kind label := by
  cases header <;> rfl

namespace Stmt

/-- The owner of the lists inside a statement, as far as it is written. -/
def owner? : Stmt → Option Owner
  | simple _ => none
  | breakable _ label header _ => some (.breakable header.kind label)
  | ifElse .. => some .branch
  | guarded .. => some .guarded

/-- The statement at a site of a body. -/
def stmtAt? (site : Site) (body : List Stmt) : Option Stmt :=
  (listAt? site.place body).bind (·[site.index]?)

/-- The owners of the lists around a place in a body, as far as they are written, the innermost
first. -/
def ownersAt : Place → List Stmt → List Owner
  | [], _ => []
  | (i, slot) :: rest, body =>
    match body[i]? with
    | some s => ownersAt rest ((s.slot? slot).getD []) ++ s.owner?.toList
    | none => []

end Stmt

/-- The visit is to the statement at its site in the body, and the lists that are open are those
around the site and those that were open around the body. -/
structure Visit.StandsIn (body : List Stmt) (around : List Owner) (v : Visit) : Prop where
  stmt : Stmt.stmtAt? v.site body = some v.stmt
  owners : v.ctx.stack.owners.map Owner.asWritten
    = Stmt.ownersAt v.site.place body ++ around.map Owner.asWritten

namespace Visit.StandsIn

variable {body inner : List Stmt} {around : List Owner} {v : Visit} {s : Stmt} {i : Nat}

/-- A statement of the list stands in it, with the open lists around. -/
theorem of_here {ctx : Context} (isAt : body[i]? = some s) :
    StandsIn body ctx.stack.owners ⟨⟨[], i⟩, s, ctx⟩ where
  stmt := isAt
  owners := rfl

/-- What stands in a list inside a statement stands in the list around it. -/
theorem inside {slot : Slot} {owner : Owner} (isAt : body[i]? = some s)
    (isSlot : s.slot? slot = some inner) (isOwner : s.owner? = some owner.asWritten)
    (h : v.StandsIn inner (owner :: around)) : (v.inside (i, slot)).StandsIn body around where
  stmt := by
    show ((body[i]?.bind (·.slot? slot)).bind (Stmt.listAt? v.site.place)).bind
      (·[v.site.index]?) = some v.stmt
    rw [isAt, Option.bind_some, isSlot, Option.bind_some]
    exact h.stmt
  owners := by
    show v.ctx.stack.owners.map Owner.asWritten
      = Stmt.ownersAt ((i, slot) :: v.site.place) body ++ around.map Owner.asWritten
    rw [Stmt.ownersAt, isAt, h.owners]
    simp [isSlot, isOwner]

theorem map (owner : Owner) {slot : Slot} {visits : List Visit} (isAt : body[i]? = some s)
    (isSlot : s.slot? slot = some inner) (isOwner : s.owner? = some owner.asWritten)
    (h : ∀ v ∈ visits, v.StandsIn inner (owner :: around)) :
    ∀ v ∈ visits.map (Visit.inside (i, slot)), v.StandsIn body around := by
  intro v mem
  obtain ⟨w, mem', rfl⟩ := List.mem_map.1 mem
  exact (h w mem').inside isAt isSlot isOwner

end Visit.StandsIn

namespace Stmt

open Visit.StandsIn

mutual

/-- A statement stands where it is visited, and so do those inside it. -/
theorem standsIn_of_mem_visits {i : Nat} {body : List Stmt} : (s : Stmt) → (ctx : Context) →
    body[i]? = some s → ∀ v ∈ s.visits i ctx, v.StandsIn body ctx.stack.owners
  | simple s, ctx, isAt => by
    intro v mem
    rw [visits] at mem
    rw [List.mem_singleton.1 mem]
    exact of_here isAt
  | breakable keyword label header inner, ctx, isAt => by
    intro v mem
    rw [visits] at mem
    rcases List.mem_cons.1 mem with rfl | mem
    · exact of_here isAt
    · have owners := (header.analyze_extends keyword ctx).owners
      rw [← owners]
      have isOwner := header.asWritten_kind_analyze keyword ctx label
      exact map _ isAt rfl (congrArg some isOwner.symm)
        (standsIn_of_mem_visits_of_drop inner _ rfl) v mem
  | ifElse keyword cond onTrue onFalse, ctx, isAt => by
    intro v mem
    rw [visits] at mem
    have behindCond := (cond.analyze_extends ctx).owners
    rcases List.mem_cons.1 mem with rfl | mem
    · exact of_here isAt
    rcases List.mem_append.1 mem with mem | mem
    · rw [← behindCond]
      exact map .branch isAt rfl rfl (standsIn_of_mem_visits_of_drop onTrue _ rfl) v mem
    · have behindTrue := congrArg BlockStack.owners
        (stack_within_analyzeList onTrue (cond.analyze ctx).ctx .branch)
      rw [← behindCond, ← behindTrue]
      exact map .branch isAt rfl rfl (standsIn_of_mem_visits_of_drop onFalse _ rfl) v
        (Outcome.mem_of_mem_behind mem)
  | guarded keyword inner caught handler finalizer, ctx, isAt => by
    intro v mem
    rw [visits] at mem
    have behindBody := stack_within_analyzeList inner ctx .guarded
    rcases List.mem_cons.1 mem with rfl | mem
    · exact of_here isAt
    rcases List.mem_append.1 mem with mem | mem
    · rcases List.mem_append.1 mem with mem | mem
      · exact map .guarded isAt rfl rfl (standsIn_of_mem_visits_of_drop inner _ rfl) v mem
      · rw [← congrArg BlockStack.owners behindBody]
        exact standsIn_of_mem_visitsOfPart isAt rfl handler _ rfl v (Outcome.mem_of_mem_behind mem)
    · have behindHandler := (Outcome.stack_andThen (ctx.within .guarded (analyzeList inner)) handler
        (stack_analyzePart handler)).trans behindBody
      rw [← congrArg BlockStack.owners behindHandler]
      exact standsIn_of_mem_visitsOfPart isAt rfl finalizer _ rfl v (Outcome.mem_of_mem_behind mem)
termination_by structural s => s

theorem standsIn_of_mem_visits_of_drop {i : Nat} {body : List Stmt} : (rest : List Stmt) →
    (ctx : Context) → body.drop i = rest →
    ∀ v ∈ visitsOfList i rest ctx, v.StandsIn body ctx.stack.owners
  | [], ctx, _ => by
    intro v mem
    rw [visitsOfList] at mem
    cases mem
  | s :: rest, ctx, isRest => by
    intro v mem
    have isAt : body[i]? = some s := by
      rw [← List.head?_drop, isRest]
      rfl
    have isRest' : body.drop (i + 1) = rest := by
      rw [← List.tail_drop, isRest]
      rfl
    rw [visitsOfList] at mem
    rcases List.mem_append.1 mem with mem | mem
    · exact standsIn_of_mem_visits s ctx isAt v mem
    · rw [← (s.analyze_extends ctx).owners]
      exact standsIn_of_mem_visits_of_drop rest _ isRest' v (Outcome.mem_of_mem_behind mem)
termination_by structural rest => rest

theorem standsIn_of_mem_visitsOfPart {i : Nat} {body : List Stmt} {s : Stmt} {slot : Slot}
    (isAt : body[i]? = some s) (isOwner : s.owner? = some .guarded) :
    (part : Option (List Stmt)) → (ctx : Context) → s.slot? slot = part →
    ∀ v ∈ visitsOfPart (i, slot) part ctx, v.StandsIn body ctx.stack.owners
  | none, ctx, _ => by
    intro v mem
    rw [visitsOfPart] at mem
    cases mem
  | some inner, ctx, isSlot => by
    intro v mem
    rw [visitsOfPart] at mem
    exact map .guarded isAt isSlot isOwner (standsIn_of_mem_visits_of_drop inner _ rfl) v
      mem
termination_by structural part => part

end

/-- A visit is to the statement at its site, and the open lists are those around the site. -/
theorem standsIn_of_mem_visitsOfList (body : List Stmt) (ctx : Context) :
    ∀ v ∈ visitsOfList 0 body ctx, v.StandsIn body ctx.stack.owners :=
  standsIn_of_mem_visits_of_drop body ctx rfl

end Stmt

end BodyCheck
