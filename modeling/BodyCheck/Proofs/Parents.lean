import BodyCheck.Proofs.SiteOrder

/-!
# Parents

Every list inside a body is opened at the visit to the statement that it belongs to.

## Main definitions

* `Stmt.opens?` — the owner of the lists inside a statement, with all that its analysis finds out.
* `Visit.Placed` — the list around a visited statement was opened at another visit, or before.

## Main statements

* `Stmt.exists_visit_of_stmtAt?` — if there is no fault, all statements are visited.
* `Stmt.placed_of_mem_visitsOfList` — every visited statement is placed.
* `Stmt.opens?_of_mem_visitsOfList` — a statement directly inside another is analyzed in a list that
  the other has opened.

## Design notes

`Visit.StandsIn` gives the owners of all lists around a visited statement, but only as far as they
are written.  What the analysis found out about the owner of the innermost list can be told from the
visit to that owner, and there is only one such visit.
-/

namespace BodyCheck

/-! ## Statements at sites -/

namespace Stmt

/-- A statement stands at its own site. -/
theorem here_mem_sites (i : Nat) (s : Stmt) : ⟨[], i⟩ ∈ s.sites i := by
  cases s <;> simp [sites]

/-- The sites in a list inside a statement are sites in the statement. -/
theorem inside_mem_sites {s : Stmt} {slot : Slot} {inner : List Stmt} {site : Site}
    (isSlot : s.slot? slot = some inner) (mem : site ∈ sitesOfList 0 inner) (i : Nat) :
    site.inside (i, slot) ∈ s.sites i := by
  have mem' := List.mem_map_of_mem (f := Site.inside (i, slot)) mem
  cases s with
  | simple s => cases slot <;> cases isSlot
  | breakable keyword label header body =>
    cases slot <;> cases isSlot
    rw [sites]
    exact .tail _ mem'
  | ifElse keyword cond onTrue onFalse =>
    cases slot <;> cases isSlot
    · rw [sites]
      exact .tail _ (List.mem_append_left _ mem')
    · rw [sites]
      exact .tail _ (List.mem_append_right _ mem')
  | guarded keyword body caught handler finalizer =>
    have part {slot : Slot} (part : Option (List Stmt)) (isPart : part = some inner)
        (mem' : site.inside (i, slot) ∈ (sitesOfList 0 inner).map (.inside (i, slot))) :
        site.inside (i, slot) ∈ sitesOfPart (i, slot) part := by
      rw [isPart, sitesOfPart]
      exact mem'
    rw [sites]
    cases slot with
    | body =>
      cases isSlot
      exact .tail _ (List.mem_append_left _ (List.mem_append_left _ mem'))
    | handler =>
      exact .tail _ (List.mem_append_left _ (List.mem_append_right _ (part _ isSlot mem')))
    | finalizer => exact .tail _ (List.mem_append_right _ (part _ isSlot mem'))
    | onTrue | onFalse => cases isSlot

/-- The sites of a statement of a list are sites of the list. -/
theorem sites_subset_sitesOfList {i j : Nat} {body : List Stmt} {s : Stmt}
    (isAt : body[j]? = some s) : s.sites (i + j) ⊆ sitesOfList i body := by
  induction body generalizing i j with
  | nil => cases isAt
  | cons first rest ih =>
    rw [sitesOfList]
    cases j with
    | zero =>
      obtain rfl := Option.some.inj isAt
      exact List.subset_append_left ..
    | succ j =>
      have inRest := ih (i := i + 1) isAt
      rw [Nat.add_right_comm] at inRest
      exact List.subset_append_of_subset_right _ inRest

theorem stmtAt?_cons (i j : Nat) (slot : Slot) (rest : Place) (body : List Stmt) :
    stmtAt? ⟨(i, slot) :: rest, j⟩ body
      = (body[i]?.bind (·.slot? slot)).bind (stmtAt? ⟨rest, j⟩) := by
  rw [stmtAt?, listAt?, Option.bind_assoc]
  rfl

/-- Where there is a statement there is a site. -/
theorem mem_sitesOfList_of_stmtAt? {site : Site} {body : List Stmt} {s : Stmt}
    (isAt : stmtAt? site body = some s) : site ∈ sitesOfList 0 body := by
  obtain ⟨place, j⟩ := site
  induction place generalizing body with
  | nil =>
    have here := sites_subset_sitesOfList (i := 0) isAt (here_mem_sites _ s)
    rwa [Nat.zero_add] at here
  | cons step rest ih =>
    obtain ⟨i, slot⟩ := step
    rw [stmtAt?_cons] at isAt
    obtain ⟨inner, isInner, isAt⟩ := Option.bind_eq_some_iff.mp isAt
    obtain ⟨parent, isParent, isSlot⟩ := Option.bind_eq_some_iff.mp isInner
    have here := sites_subset_sitesOfList (i := 0) isParent (inside_mem_sites isSlot (ih isAt) _)
    rwa [Nat.zero_add] at here

/-- The list in a slot of the statement at a site has the place one step further. -/
theorem listAt?_concat (place : Place) (i : Nat) (slot : Slot) (body : List Stmt) :
    listAt? (place ++ [(i, slot)]) body = (stmtAt? ⟨place, i⟩ body).bind (·.slot? slot) := by
  induction place generalizing body with
  | nil =>
    show (body[i]?.bind (·.slot? slot)).bind some = body[i]?.bind (·.slot? slot)
    exact Option.bind_fun_some _
  | cons step rest ih =>
    rw [List.cons_append, listAt?, stmtAt?_cons, funext ih]
    exact (Option.bind_assoc ..).symm

/-- The statements of a list inside the statement at a site. -/
theorem stmtAt?_inside {site : Site} {body inner : List Stmt} {s : Stmt} {slot : Slot}
    (isAt : stmtAt? site body = some s) (isSlot : s.slot? slot = some inner) (j : Nat) :
    stmtAt? ⟨site.place ++ [(site.index, slot)], j⟩ body = inner[j]? := by
  rw [stmtAt?, listAt?_concat, isAt, Option.bind_some, isSlot, Option.bind_some]

/-- If an analysis comes to its end, all statements are visited. -/
theorem exists_visit_of_stmtAt? {site : Site} {body : List Stmt} {s : Stmt} {ctx : Context}
    (ended : (analyzeList body ctx).fault = none) (isAt : stmtAt? site body = some s) :
    ∃ v ∈ visitsOfList 0 body ctx, v.site = site ∧ v.stmt = s := by
  have mem := mem_sitesOfList_of_stmtAt? isAt
  rw [← (goesThrough_visitsOfList 0 body ctx).toTheEnd ended] at mem
  obtain ⟨v, visited, rfl⟩ := List.mem_map.mp mem
  have same := (standsIn_of_mem_visitsOfList body ctx v visited).stmt
  exact ⟨v, visited, rfl, Option.some.inj (same.symm.trans isAt)⟩

/-! ## The lists that are opened -/

/-- The owner of the lists inside the statement, if it is analyzed in this context. -/
def opens? : Stmt → Context → Option Owner
  | simple _, _ => none
  | breakable keyword label header _, ctx =>
    some (.breakable (header.analyze keyword ctx).kind label)
  | ifElse .., _ => some .branch
  | guarded .., _ => some .guarded

end Stmt

namespace Visit

variable {α : Type} {v w : Visit} {visits visits' : List Visit} {outer owner : Owner}

/-- The list around the visited statement was opened at one of the visits. -/
def HasParent (visits : List Visit) (w : Visit) : Prop :=
  ∃ v ∈ visits, ∃ slot, w.site.place = v.site.place ++ [(v.site.index, slot)] ∧
    v.stmt.opens? v.ctx = some w.ctx.stack.top.owner

/-- The list around the visited statement is the one that all is seen from, which belongs to
`outer`, or it was opened at one of the visits. -/
def Placed (outer : Owner) (visits : List Visit) (w : Visit) : Prop :=
  (w.site.place = [] ∧ w.ctx.stack.top.owner = outer) ∨ w.HasParent visits

/-- All lists that the visits are to were opened at the first visit `v`, or at one of them. -/
def Opens (v : Visit) (visits : List Visit) : Prop :=
  ∀ w ∈ visits, w.HasParent (v :: visits)

/-- More visits may be taken into account. -/
theorem HasParent.mono (h : w.HasParent visits) (sub : visits ⊆ visits') :
    w.HasParent visits' := by
  obtain ⟨v, mem, parent⟩ := h
  exact ⟨v, sub mem, parent⟩

/-- A visit that is placed among some visits is placed among more. -/
theorem Placed.mono (h : w.Placed outer visits) (sub : visits ⊆ visits') :
    w.Placed outer visits' :=
  h.imp_right (·.mono sub)

/-- If the visits behind an analysis are placed, they are whether there are any or not. -/
theorem placed_behind {outcome : Outcome α} {later : Context → List Visit}
    (h : ∀ w ∈ later outcome.ctx, w.Placed outer (later outcome.ctx)) :
    ∀ w ∈ outcome.behind later, w.Placed outer (outcome.behind later) := by
  unfold Outcome.behind
  split
  · exact List.forall_mem_nil _
  · exact h

namespace Opens

/-- Where nothing is visited nothing has to be opened. -/
theorem nil (v : Visit) : v.Opens [] :=
  List.forall_mem_nil _

/-- A list inside a statement is opened at the visit to the statement. -/
theorem inside {i : Nat} (isAt : v.site = ⟨[], i⟩) (opened : v.stmt.opens? v.ctx = some owner)
    (h : ∀ w ∈ visits, w.Placed owner visits) (slot : Slot) :
    v.Opens (visits.map (.inside (i, slot))) := by
  intro w' mem'
  obtain ⟨w, mem, rfl⟩ := List.mem_map.mp mem'
  rcases h w mem with ⟨here, isOwner⟩ | ⟨u, memParent, slot', isPlace, opened'⟩
  · refine ⟨v, .head _, slot, ?_, opened.trans (congrArg some isOwner.symm)⟩
    rw [isAt]
    exact congrArg ((i, slot) :: ·) here
  · refine ⟨u.inside (i, slot), .tail _ (List.mem_map_of_mem memParent), slot', ?_, opened'⟩
    exact congrArg ((i, slot) :: ·) isPlace

/-- Two lists inside a statement are both opened at the visit to it. -/
theorem append (h : v.Opens visits) (h' : v.Opens visits') : v.Opens (visits ++ visits') := by
  intro w mem
  rcases List.mem_append.mp mem with mem | mem
  · exact (h w mem).mono (List.cons_subset_cons v (List.subset_append_left ..))
  · exact (h' w mem).mono (List.cons_subset_cons v (List.subset_append_right ..))

theorem behind {outcome : Outcome α} {later : Context → List Visit}
    (h : ∀ ctx, v.Opens (later ctx)) : v.Opens (outcome.behind later) := by
  unfold Outcome.behind
  split
  · exact nil v
  · exact h _

theorem placed (h : v.Opens visits) (here : v.site.place = []) :
    ∀ w ∈ v :: visits, w.Placed v.ctx.stack.top.owner (v :: visits) := by
  intro w mem
  rcases List.mem_cons.mp mem with rfl | mem
  · exact .inl ⟨here, rfl⟩
  · exact .inr (h w mem)

end Opens

end Visit

namespace Stmt

mutual

/-- The list around each statement that is visited was opened at a visit to the statement that it
belongs to. -/
theorem placed_of_mem_visits (i : Nat) : (s : Stmt) → (ctx : Context) →
    ∀ w ∈ s.visits i ctx, w.Placed ctx.stack.top.owner (s.visits i ctx)
  | simple s, ctx => by
    rw [visits]
    exact (Visit.Opens.nil ⟨⟨[], i⟩, simple s, ctx⟩).placed rfl
  | breakable keyword label header body, ctx => by
    rw [visits]
    let opened := header.analyze keyword ctx
    let v : Visit := ⟨⟨[], i⟩, breakable keyword label header body, ctx⟩
    have opensBody : v.Opens _ :=
      .inside rfl rfl (placed_of_mem_visitsOfList 0 body
        (opened.ctx.enter (.breakable opened.kind label))) .body
    exact opensBody.placed rfl
  | ifElse keyword cond onTrue onFalse, ctx => by
    rw [visits]
    let v : Visit := ⟨⟨[], i⟩, ifElse keyword cond onTrue onFalse, ctx⟩
    have opensTrue : v.Opens _ :=
      .inside rfl rfl (placed_of_mem_visitsOfList 0 onTrue ((cond.analyze ctx).ctx.enter .branch))
        .onTrue
    have opensFalse (ctx : Context) : v.Opens _ :=
      .inside rfl rfl (placed_of_mem_visitsOfList 0 onFalse (ctx.enter .branch)) .onFalse
    exact (opensTrue.append (.behind opensFalse)).placed rfl
  | guarded keyword body caught handler finalizer, ctx => by
    rw [visits]
    let v : Visit := ⟨⟨[], i⟩, guarded keyword body caught handler finalizer, ctx⟩
    have opensBody : v.Opens _ :=
      .inside rfl rfl (placed_of_mem_visitsOfList 0 body (ctx.enter .guarded)) .body
    have opensHandler (ctx : Context) : v.Opens (visitsOfPart (i, .handler) handler ctx) :=
      opens_visitsOfPart rfl rfl .handler handler ctx
    have opensFinalizer (ctx : Context) : v.Opens (visitsOfPart (i, .finalizer) finalizer ctx) :=
      opens_visitsOfPart rfl rfl .finalizer finalizer ctx
    exact ((opensBody.append (.behind opensHandler)).append (.behind opensFinalizer)).placed rfl

/-- Every visited statement is placed. -/
theorem placed_of_mem_visitsOfList (i : Nat) : (body : List Stmt) → (ctx : Context) →
    ∀ w ∈ visitsOfList i body ctx, w.Placed ctx.stack.top.owner (visitsOfList i body ctx)
  | [], ctx => by
    rw [visitsOfList]
    exact nofun
  | s :: rest, ctx => by
    intro w mem
    rw [visitsOfList] at mem ⊢
    rcases List.mem_append.mp mem with mem | mem
    · exact (placed_of_mem_visits i s ctx w mem).mono (List.subset_append_left ..)
    · refine Visit.Placed.mono ?_ (List.subset_append_right ..)
      rw [← (s.analyze_extends ctx).owner_top]
      exact Visit.placed_behind (placed_of_mem_visitsOfList (i + 1) rest _) w mem

/-- The handler and the finalizer of a try statement are opened at the visit to it, as its body is.
-/
theorem opens_visitsOfPart {v : Visit} {i : Nat} (isAt : v.site = ⟨[], i⟩)
    (opened : v.stmt.opens? v.ctx = some .guarded) (slot : Slot) : (part : Option (List Stmt)) →
    (ctx : Context) → v.Opens (visitsOfPart (i, slot) part ctx)
  | none, ctx => by
    rw [visitsOfPart]
    exact .nil v
  | some body, ctx => by
    rw [visitsOfPart]
    exact .inside isAt opened (placed_of_mem_visitsOfList 0 body (ctx.enter .guarded)) slot

end

/-- A statement that stands directly inside another is analyzed in a list that the other has
opened. -/
theorem opens?_of_mem_visitsOfList {i : Nat} {body : List Stmt} {ctx : Context} {v w : Visit}
    {slot : Slot} (hv : v ∈ visitsOfList i body ctx) (hw : w ∈ visitsOfList i body ctx)
    (inside : w.site.place = v.site.place ++ [(v.site.index, slot)]) :
    v.stmt.opens? v.ctx = some w.ctx.stack.top.owner := by
  rcases placed_of_mem_visitsOfList i body ctx w hw with ⟨here, -⟩ |
    ⟨u, hu, slot', inside', opened⟩
  · rw [inside] at here
    simp at here
  · obtain ⟨samePlace, sameStep⟩ := List.append_inj' (inside.symm.trans inside') rfl
    -- The statement `u` that has opened the list stands where `v` stands, so it is `v`.
    have sameIndex : v.site.index = u.site.index := (Prod.mk.inj (List.cons.inj sameStep).1).1
    rw [eq_of_mem_visitsOfList hv hu (Site.ext samePlace sameIndex), opened]

end Stmt

end BodyCheck
