import BodyCheck.Proofs.Effect

/-!
# Uses of locals

The reads and assignments of locals that an analysis comes to, in the order in which it is done
with them, each with the place of its statement in the tree and the context it is analyzed in.

## Main definitions

* `Place` — where a list of statements stands in a body.
* `Use` — a read or an assignment that an analysis comes to.
* `Expr.uses`, `Simple.uses`, `Header.uses`, `Stmt.uses`, `Stmt.usesOfList` — the uses that the
  analysis of a part of a body comes to.

## Main statements

* `Stmt.head_of_mem_uses`, `Stmt.head_of_mem_usesOfList` — the uses of a statement stand in the list
  of the statement itself or in lists inside it.
* `Stmt.owned_of_mem_usesOfList` — a use is part of an expression of a statement that stands directly
  in the list at its place.

## Design notes

An analysis does not come to everything.  The key of an access is left out if the base is wrong,
expressions behind a wrong one are left out in some statements, and behind a fault nothing more is
analyzed.  So the uses follow the analysis step by step and take their contexts from it.

Places are relative to the list at hand: a place in an inner list becomes one in the outer list by
putting the index of the statement and the name of the inner list before it.  One list encloses
another just if its place is a prefix of the place of the other.
-/

namespace BodyCheck

/-- The lists that a statement may have inside it. -/
inductive Slot
  | body
  | onTrue
  | onFalse
  | handler
  | finalizer
deriving DecidableEq, Repr

/-- Where a list stands: which lists of which statements lead to it, from the outside in. -/
abbrev Place := List (Nat × Slot)

/-- A read or an assignment of a local that an analysis comes to. -/
structure Use where
  /-- Where the list stands that holds the statement. -/
  place : Place
  /-- The read or assignment, as it is before its analysis. -/
  expr : Expr
  /-- The context in which its analysis begins. -/
  ctx : Context

namespace Use

/-- What comes of the analysis of the use. -/
def checked (u : Use) : Expr.Checked :=
  u.expr.analyze u.ctx

/-- The local that is assigned, if this is an assignment whose analysis finds nothing wrong. -/
def sets? (u : Use) : Option String :=
  match u.expr with
  | .assign token _ _ => if u.checked.ok then some token.value else none
  | _ => none

/-- Whether this is a read. -/
def isRead (u : Use) : Bool :=
  match u.expr with
  | .read .. => true
  | _ => false

/-- What the analysis of the use has to say about the local, apart from what is inside of the use:
it may not be declared, or be read before it is set. -/
def finding? (u : Use) : Option Diagnostic :=
  match u.expr with
  | .read token _ _ =>
    match u.ctx.locals.status? token.value with
    | some .set => none
    | some .unset => some ⟨.uninitialized token.value, token⟩
    | none => some ⟨.undeclared token.value, token⟩
  | .assign token source _ =>
    let source := source.analyze u.ctx
    if source.ok then
      match source.ctx.locals.status? token.value with
      | some _ => none
      | none => some ⟨.undeclared token.value, token⟩
    else none
  | _ => none

/-- The use as it is seen from the list around the statement that its list belongs to. -/
def inside (step : Nat × Slot) (u : Use) : Use :=
  { u with place := step :: u.place }

variable (step : Nat × Slot) (u : Use)

@[simp] theorem place_inside : (u.inside step).place = step :: u.place := rfl

@[simp] theorem ctx_inside : (u.inside step).ctx = u.ctx := rfl

@[simp] theorem sets?_inside : (u.inside step).sets? = u.sets? := rfl

@[simp] theorem isRead_inside : (u.inside step).isRead = u.isRead := rfl

@[simp] theorem finding?_inside : (u.inside step).finding? = u.finding? := rfl

/-- What is found about locals at some uses does not depend on the list they are seen from. -/
theorem filterMap_finding?_inside (uses : List Use) :
    (uses.map (.inside step)).filterMap finding? = uses.filterMap finding? := by
  rw [List.filterMap_map]
  rfl

end Use

/-! ## Expressions -/

namespace Expr

/-- The uses in an expression; an assignment stands behind what is assigned. -/
def uses : Expr → Context → List Use
  | value .., _ => []
  | read token declared known, ctx => [⟨[], read token declared known, ctx⟩]
  | assign token source known, ctx => source.uses ctx ++ [⟨[], assign token source known, ctx⟩]
  | index _ base key _, ctx =>
    base.uses ctx ++ if (base.analyze ctx).ok then key.uses (base.analyze ctx).ctx else []

/-- The uses in an expression that may be absent. -/
def usesOptional : Option Expr → Context → List Use
  | none, _ => []
  | some e, ctx => e.uses ctx

/-- The uses in expressions that are analyzed up to the first that is wrong. -/
def usesWhileOk : List Expr → Context → List Use
  | [], _ => []
  | e :: es, ctx =>
    e.uses ctx ++ if (e.analyze ctx).ok then usesWhileOk es (e.analyze ctx).ctx else []

/-- The uses in arguments, which are analyzed up to the first that is wrong or of unknown type. -/
def usesOfArgs : List Expr → Context → List Use
  | [], _ => []
  | e :: es, ctx =>
    e.uses ctx ++
      if (e.analyze ctx).ok && (e.analyze ctx).expr.ty?.isSome then usesOfArgs es (e.analyze ctx).ctx
      else []

end Expr

/-! ## Statements -/

/-- The uses in a simple statement.  No argument of a constructor is analyzed if its class is not
known. -/
def Simple.uses : Simple → Context → List Use
  | construct target args _, ctx =>
    match target.resolve ctx with
    | .ok _ => Expr.usesOfArgs args ctx
    | .error _ => []
  | expression e, ctx | ret _ e, ctx | delete _ e, ctx | caseLabel _ e, ctx => e.uses ctx
  | jump .., _ | defaultLabel _, _ => []
  | assert _ exprs, ctx | log _ exprs, ctx => Expr.usesWhileOk exprs ctx

/-- The uses in a header. -/
def Header.uses : Header → Context → List Use
  | doWhile e, ctx | forIn _ e, ctx | whileLoop e, ctx | switch e, ctx => e.uses ctx
  | forLoop start cond step, ctx =>
    let behindStart := (Expr.analyzeOptional start ctx).2
    let behindCond := (Expr.analyzeOptional cond behindStart).2
    Expr.usesOptional start ctx ++ Expr.usesOptional cond behindStart
      ++ Expr.usesOptional step behindCond

/-- The uses in what follows an analysis: none if there was a fault. -/
def Outcome.usesBehind {α : Type} (outcome : Outcome α) (uses : Context → List Use) : List Use :=
  match outcome.fault with
  | some _ => []
  | none => uses outcome.ctx

namespace Stmt

mutual

/-- The uses in the statement at the given index of a list. -/
def uses (i : Nat) : Stmt → Context → List Use
  | simple s, ctx => s.uses ctx
  | breakable keyword label header body, ctx =>
    let opened := header.analyze keyword ctx
    header.uses ctx ++
      (usesOfList 0 body (opened.ctx.enter (.breakable opened.kind label))).map (.inside (i, .body))
  | ifElse _ cond onTrue onFalse, ctx =>
    let cond' := cond.analyze ctx
    cond.uses ctx
      ++ (usesOfList 0 onTrue (cond'.ctx.enter .branch)).map (.inside (i, .onTrue))
      ++ (cond'.ctx.within .branch (analyzeList onTrue)).usesBehind fun ctx =>
        (usesOfList 0 onFalse (ctx.enter .branch)).map (.inside (i, .onFalse))
  | guarded _ body _ handler finalizer, ctx =>
    let guardedBody := ctx.within .guarded (analyzeList body)
    (usesOfList 0 body (ctx.enter .guarded)).map (.inside (i, .body))
      ++ guardedBody.usesBehind (usesOfPart (i, .handler) handler)
      ++ (guardedBody.andThen handler (analyzePart handler)).usesBehind
        (usesOfPart (i, .finalizer) finalizer)

/-- The uses in a list whose first statement has the given index. -/
def usesOfList (i : Nat) : List Stmt → Context → List Use
  | [], _ => []
  | s :: rest, ctx => s.uses i ctx ++ (s.analyze ctx).usesBehind (usesOfList (i + 1) rest)

/-- The uses in a part of a try statement that may be absent. -/
def usesOfPart (step : Nat × Slot) : Option (List Stmt) → Context → List Use
  | none, _ => []
  | some body, ctx => (usesOfList 0 body (ctx.enter .guarded)).map (.inside step)

end

end Stmt

/-! ## Places -/

/-- An element of a list stands between those before it and those behind it. -/
theorem eq_take_append_cons_drop {α : Type} {l : List α} {i : Nat} (h : i < l.length) :
    l = l.take i ++ l[i] :: l.drop (i + 1) := by
  rw [List.getElem_cons_drop, List.take_append_drop]

/-- Whether all uses stand in the list at hand itself. -/
def AllHere (uses : List Use) : Prop :=
  ∀ u ∈ uses, u.place = []

namespace AllHere

variable {p q : List Use}

theorem nil : AllHere [] := by
  intro u h
  cases h

theorem append (hp : AllHere p) (hq : AllHere q) : AllHere (p ++ q) := by
  intro u h
  rcases List.mem_append.1 h with h | h
  · exact hp u h
  · exact hq u h

theorem ite (b : Bool) (hp : AllHere p) : AllHere (if b then p else []) := by
  cases b
  · exact nil
  · exact hp

end AllHere

/-- Whether all uses stand in the list that a step leads to, or in lists inside it. -/
def AllInside (step : Nat × Slot) (uses : List Use) : Prop :=
  ∀ u ∈ uses, u.place.head? = some step

theorem allInside_map (step : Nat × Slot) (uses : List Use) :
    AllInside step (uses.map (.inside step)) := by
  intro u h
  obtain ⟨v, -, rfl⟩ := List.mem_map.1 h
  rfl

namespace Expr

/-- The uses in an expression stand in the list of its statement. -/
theorem allHere_uses (e : Expr) (ctx : Context) : AllHere (e.uses ctx) := by
  induction e generalizing ctx with
  | value token content known => exact .nil
  | read token declared known => simp [AllHere, uses]
  | assign token source known ih => exact (ih ctx).append (by simp [AllHere])
  | index token base key known ihBase ihKey => exact (ihBase ctx).append (.ite _ (ihKey _))

theorem allHere_usesOptional (e : Option Expr) (ctx : Context) : AllHere (usesOptional e ctx) := by
  cases e with
  | none => exact .nil
  | some e => exact e.allHere_uses ctx

theorem allHere_usesWhileOk (es : List Expr) (ctx : Context) : AllHere (usesWhileOk es ctx) := by
  induction es generalizing ctx with
  | nil => exact .nil
  | cons e es ih => exact (e.allHere_uses ctx).append (.ite _ (ih _))

theorem allHere_usesOfArgs (es : List Expr) (ctx : Context) : AllHere (usesOfArgs es ctx) := by
  induction es generalizing ctx with
  | nil => exact .nil
  | cons e es ih => exact (e.allHere_uses ctx).append (.ite _ (ih _))

end Expr

/-- The uses in a simple statement stand in its list. -/
theorem Simple.allHere_uses (s : Simple) (ctx : Context) : AllHere (s.uses ctx) := by
  cases s with
  | construct target args resolution =>
    rw [uses]
    split
    · exact Expr.allHere_usesOfArgs args ctx
    · exact .nil
  | expression e | ret _ e | delete _ e | caseLabel _ e => exact e.allHere_uses ctx
  | jump | defaultLabel => exact .nil
  | assert _ exprs | log _ exprs => exact Expr.allHere_usesWhileOk exprs ctx

theorem Header.allHere_uses (header : Header) (ctx : Context) : AllHere (header.uses ctx) := by
  cases header with
  | doWhile e | forIn _ e | whileLoop e | switch e => exact e.allHere_uses ctx
  | forLoop start cond step =>
    exact ((Expr.allHere_usesOptional start ctx).append (Expr.allHere_usesOptional cond _)).append
      (Expr.allHere_usesOptional step _)

/-- What is used behind an analysis is used only if there is no fault. -/
theorem Outcome.mem_of_mem_usesBehind {α : Type} {outcome : Outcome α}
    {uses : Context → List Use} {u : Use} (h : u ∈ outcome.usesBehind uses) :
    u ∈ uses outcome.ctx := by
  unfold usesBehind at h
  split at h
  · cases h
  · exact h

theorem AllInside.usesBehind {α : Type} {step : Nat × Slot} {uses : Context → List Use}
    (h : ∀ ctx, AllInside step (uses ctx)) (outcome : Outcome α) :
    AllInside step (outcome.usesBehind uses) := by
  intro u mem
  exact h outcome.ctx u (Outcome.mem_of_mem_usesBehind mem)

namespace Stmt

theorem allInside_usesOfPart (step : Nat × Slot) (part : Option (List Stmt)) (ctx : Context) :
    AllInside step (usesOfPart step part ctx) := by
  cases part with
  | none =>
    intro u h
    cases h
  | some body => exact allInside_map step _

variable {i : Nat} {ctx : Context} {u : Use}

/-- A use in a statement stands in the list of the statement or in a list that the statement
leads to. -/
theorem head_of_mem_uses {s : Stmt} (h : u ∈ s.uses i ctx) :
    ∀ step ∈ u.place.head?, step.1 = i := by
  have ofHere (here : u.place = []) : ∀ step ∈ u.place.head?, step.1 = i := by
    intro step isHead
    rw [here] at isHead
    cases isHead
  have ofInside {slot : Slot} {uses : List Use} (inside : AllInside (i, slot) uses)
      (h : u ∈ uses) : ∀ step ∈ u.place.head?, step.1 = i := by
    rw [inside u h]
    rintro step ⟨⟩
    rfl
  cases s with
  | simple s =>
    rw [uses] at h
    exact ofHere (s.allHere_uses ctx u h)
  | breakable keyword label header body =>
    rw [uses] at h
    rcases List.mem_append.1 h with h | h
    · exact ofHere (header.allHere_uses ctx u h)
    · exact ofInside (allInside_map _ _) h
  | ifElse keyword cond onTrue onFalse =>
    rw [uses] at h
    rcases List.mem_append.1 h with h | h
    · rcases List.mem_append.1 h with h | h
      · exact ofHere (cond.allHere_uses ctx u h)
      · exact ofInside (allInside_map _ _) h
    · exact ofInside (.usesBehind (fun _ => allInside_map _ _) _) h
  | guarded keyword body caught handler finalizer =>
    rw [uses] at h
    rcases List.mem_append.1 h with h | h
    · rcases List.mem_append.1 h with h | h
      · exact ofInside (allInside_map _ _) h
      · exact ofInside (.usesBehind (allInside_usesOfPart _ _) _) h
    · exact ofInside (.usesBehind (allInside_usesOfPart _ _) _) h

/-- A use in a list stands in the list itself or in one that a statement of the list leads to. -/
theorem head_of_mem_usesOfList {body : List Stmt} (h : u ∈ usesOfList i body ctx) :
    ∀ step ∈ u.place.head?, i ≤ step.1 := by
  induction body generalizing i ctx with
  | nil =>
    rw [usesOfList] at h
    cases h
  | cons s rest ih =>
    rw [usesOfList] at h
    intro step isHead
    rcases List.mem_append.1 h with h | h
    · exact Nat.le_of_eq (head_of_mem_uses h step isHead).symm
    · have later := ih (Outcome.mem_of_mem_usesBehind h) step isHead
      omega

end Stmt

/-! ## Owners of uses -/

/-- The expression itself and all that is inside it. -/
def Expr.parts : Expr → List Expr
  | value token content known => [value token content known]
  | read token declared known => [read token declared known]
  | assign token source known => assign token source known :: source.parts
  | index token base key known => index token base key known :: (base.parts ++ key.parts)

/-- The use is part of one of the expressions. -/
def Use.IsPartOf (u : Use) (exprs : List Expr) : Prop :=
  ∃ e ∈ exprs, u.expr ∈ e.parts

namespace Use.IsPartOf

variable {u : Use} {es fs : List Expr}

theorem of_subset (h : u.IsPartOf es) (sub : es ⊆ fs) : u.IsPartOf fs := by
  obtain ⟨e, mem, part⟩ := h
  exact ⟨e, sub mem, part⟩

end Use.IsPartOf

namespace Expr

variable {u : Use}

/-- What is used in an expression is a part of it. -/
theorem mem_parts_of_mem_uses {e : Expr} {ctx : Context} (h : u ∈ e.uses ctx) :
    u.expr ∈ e.parts := by
  induction e generalizing ctx with
  | value token content known => cases h
  | read token declared known =>
    rw [List.mem_singleton.1 h]
    exact List.mem_cons_self
  | assign token source known ih =>
    rcases List.mem_append.1 h with h | h
    · exact List.mem_cons_of_mem _ (ih h)
    · rw [List.mem_singleton.1 h]
      exact List.mem_cons_self
  | index token base key known ihBase ihKey =>
    refine List.mem_cons_of_mem _ ?_
    rcases List.mem_append.1 h with h | h
    · exact List.mem_append_left _ (ihBase h)
    · split at h
      · exact List.mem_append_right _ (ihKey h)
      · cases h

theorem isPartOf_of_mem_uses {e : Expr} {ctx : Context} (h : u ∈ e.uses ctx) : u.IsPartOf [e] :=
  ⟨e, List.mem_singleton_self e, mem_parts_of_mem_uses h⟩

theorem isPartOf_of_mem_usesOptional {e : Option Expr} {ctx : Context}
    (h : u ∈ usesOptional e ctx) : u.IsPartOf e.toList := by
  cases e with
  | none => cases h
  | some e => exact isPartOf_of_mem_uses h

theorem isPartOf_of_mem_usesWhileOk {es : List Expr} {ctx : Context}
    (h : u ∈ usesWhileOk es ctx) : u.IsPartOf es := by
  induction es generalizing ctx with
  | nil => cases h
  | cons e es ih =>
    rcases List.mem_append.1 h with h | h
    · exact ⟨e, List.mem_cons_self, mem_parts_of_mem_uses h⟩
    · split at h
      · exact (ih h).of_subset (List.subset_cons_self e es)
      · cases h

theorem isPartOf_of_mem_usesOfArgs {es : List Expr} {ctx : Context}
    (h : u ∈ usesOfArgs es ctx) : u.IsPartOf es := by
  induction es generalizing ctx with
  | nil => cases h
  | cons e es ih =>
    rcases List.mem_append.1 h with h | h
    · exact ⟨e, List.mem_cons_self, mem_parts_of_mem_uses h⟩
    · split at h
      · exact (ih h).of_subset (List.subset_cons_self e es)
      · cases h

end Expr

/-- A use in a simple statement is part of one of its expressions. -/
theorem Simple.isPartOf_of_mem_uses {s : Simple} {ctx : Context} {u : Use}
    (h : u ∈ s.uses ctx) : u.IsPartOf s.exprs := by
  cases s with
  | construct target args resolution =>
    rw [uses] at h
    split at h
    · exact Expr.isPartOf_of_mem_usesOfArgs h
    · cases h
  | expression e | ret _ e | delete _ e | caseLabel _ e => exact Expr.isPartOf_of_mem_uses h
  | jump | defaultLabel => cases h
  | assert _ exprs | log _ exprs => exact Expr.isPartOf_of_mem_usesWhileOk h

theorem Header.isPartOf_of_mem_uses {header : Header} {ctx : Context} {u : Use}
    (h : u ∈ header.uses ctx) : u.IsPartOf header.exprs := by
  cases header with
  | doWhile e | forIn _ e | whileLoop e | switch e => exact Expr.isPartOf_of_mem_uses h
  | forLoop start cond step =>
    rcases List.mem_append.1 h with h | h
    · rcases List.mem_append.1 h with h | h
      · exact (Expr.isPartOf_of_mem_usesOptional h).of_subset
          (List.Subset.trans (List.subset_append_left _ _) (List.subset_append_left _ _))
      · exact (Expr.isPartOf_of_mem_usesOptional h).of_subset
          (List.Subset.trans (List.subset_append_right _ _) (List.subset_append_left _ _))
    · exact (Expr.isPartOf_of_mem_usesOptional h).of_subset (List.subset_append_right ..)

namespace Stmt

/-- The expressions of a statement that are not inside the statements inside it. -/
def exprs : Stmt → List Expr
  | simple s => s.exprs
  | breakable _ _ header _ => header.exprs
  | ifElse _ cond _ _ => [cond]
  | guarded .. => []

/-- The list of a statement in the given slot. -/
def slot? : Stmt → Slot → Option (List Stmt)
  | breakable _ _ _ body, .body | guarded _ body _ _ _, .body => some body
  | ifElse _ _ onTrue _, .onTrue => some onTrue
  | ifElse _ _ _ onFalse, .onFalse => some onFalse
  | guarded _ _ _ handler _, .handler => handler
  | guarded _ _ _ _ finalizer, .finalizer => finalizer
  | _, _ => none

/-- The list at a place in a body. -/
def listAt? : Place → List Stmt → Option (List Stmt)
  | [], body => some body
  | (i, slot) :: rest, body => (body[i]?.bind (·.slot? slot)).bind (listAt? rest)

end Stmt

/-- The use is part of an expression of a statement that stands directly in the list at the place of
the use. -/
def Use.Owned (body : List Stmt) (u : Use) : Prop :=
  ∃ list ∈ Stmt.listAt? u.place body, ∃ s ∈ list, u.IsPartOf s.exprs

namespace Use.Owned

variable {body : List Stmt} {u : Use} {s : Stmt} {i : Nat}

/-- A use is owned in the list at hand if it is part of an expression of one of its statements. -/
theorem of_here (isAt : body[i]? = some s) (here : u.place = []) (h : u.IsPartOf s.exprs) :
    u.Owned body := by
  refine ⟨body, ?_, s, List.mem_of_getElem? isAt, h⟩
  rw [here]
  rfl

/-- A use that is owned in a list is owned in the list around the statement that has it. -/
theorem inside {slot : Slot} {inner : List Stmt} (isAt : body[i]? = some s)
    (isSlot : s.slot? slot = some inner) (h : u.Owned inner) : (u.inside (i, slot)).Owned body := by
  obtain ⟨list, isList, owner⟩ := h
  refine ⟨list, ?_, owner⟩
  show (body[i]?.bind (·.slot? slot)).bind (Stmt.listAt? u.place) = some list
  rw [isAt, Option.bind_some, isSlot, Option.bind_some]
  exact isList

end Use.Owned

namespace Stmt

/-- If the uses in a list are owned by it, they are owned around the statement as well. -/
theorem owned_of_mem_map {body inner : List Stmt} {s : Stmt} {i : Nat} {slot : Slot}
    (isAt : body[i]? = some s) (isSlot : s.slot? slot = some inner) {uses : List Use}
    (h : ∀ u ∈ uses, u.Owned inner) : ∀ u ∈ uses.map (Use.inside (i, slot)), u.Owned body := by
  intro u mem
  obtain ⟨v, mem', rfl⟩ := List.mem_map.1 mem
  exact (h v mem').inside isAt isSlot

mutual

/-- The uses in a statement of a list are owned. -/
theorem owned_of_mem_uses {i : Nat} {body : List Stmt} : (s : Stmt) → (ctx : Context) →
    body[i]? = some s → ∀ u ∈ s.uses i ctx, u.Owned body
  | simple s, ctx, isAt => by
    intro u mem
    rw [uses] at mem
    exact .of_here isAt (s.allHere_uses ctx u mem) (Simple.isPartOf_of_mem_uses mem)
  | breakable keyword label header inner, ctx, isAt => by
    intro u mem
    rw [uses] at mem
    rcases List.mem_append.1 mem with mem | mem
    · exact .of_here isAt (header.allHere_uses ctx u mem) (Header.isPartOf_of_mem_uses mem)
    · exact owned_of_mem_map isAt rfl (owned_of_mem_uses_of_drop inner _ rfl) u mem
  | ifElse keyword cond onTrue onFalse, ctx, isAt => by
    intro u mem
    rw [uses] at mem
    rcases List.mem_append.1 mem with mem | mem
    · rcases List.mem_append.1 mem with mem | mem
      · exact .of_here isAt (cond.allHere_uses ctx u mem) (Expr.isPartOf_of_mem_uses mem)
      · exact owned_of_mem_map isAt rfl (owned_of_mem_uses_of_drop onTrue _ rfl) u mem
    · exact owned_of_mem_map isAt rfl (owned_of_mem_uses_of_drop onFalse _ rfl) u
        (Outcome.mem_of_mem_usesBehind mem)
  | guarded keyword inner caught handler finalizer, ctx, isAt => by
    intro u mem
    rw [uses] at mem
    rcases List.mem_append.1 mem with mem | mem
    · rcases List.mem_append.1 mem with mem | mem
      · exact owned_of_mem_map isAt rfl (owned_of_mem_uses_of_drop inner _ rfl) u mem
      · exact owned_of_mem_usesOfPart isAt handler _ rfl u (Outcome.mem_of_mem_usesBehind mem)
    · exact owned_of_mem_usesOfPart isAt finalizer _ rfl u (Outcome.mem_of_mem_usesBehind mem)
termination_by structural s => s

theorem owned_of_mem_uses_of_drop {i : Nat} {body : List Stmt} : (rest : List Stmt) →
    (ctx : Context) → body.drop i = rest → ∀ u ∈ usesOfList i rest ctx, u.Owned body
  | [], ctx, _ => by
    intro u mem
    rw [usesOfList] at mem
    cases mem
  | s :: rest, ctx, isRest => by
    intro u mem
    have isAt : body[i]? = some s := by
      rw [← List.head?_drop, isRest]
      rfl
    have isRest' : body.drop (i + 1) = rest := by
      rw [← List.tail_drop, isRest]
      rfl
    rw [usesOfList] at mem
    rcases List.mem_append.1 mem with mem | mem
    · exact owned_of_mem_uses s ctx isAt u mem
    · exact owned_of_mem_uses_of_drop rest _ isRest' u (Outcome.mem_of_mem_usesBehind mem)
termination_by structural rest => rest

theorem owned_of_mem_usesOfPart {i : Nat} {body : List Stmt} {s : Stmt} {slot : Slot}
    (isAt : body[i]? = some s) : (part : Option (List Stmt)) → (ctx : Context) →
    s.slot? slot = part → ∀ u ∈ usesOfPart (i, slot) part ctx, u.Owned body
  | none, ctx, _ => by
    intro u mem
    rw [usesOfPart] at mem
    cases mem
  | some inner, ctx, isSlot => by
    intro u mem
    rw [usesOfPart] at mem
    exact owned_of_mem_map isAt isSlot (owned_of_mem_uses_of_drop inner _ rfl) u mem
termination_by structural part => part

end

/-- A use stands where its place says: the list at its place exists, and a statement that stands
directly in that list has it in one of its own expressions. -/
theorem owned_of_mem_usesOfList (body : List Stmt) (ctx : Context) :
    ∀ u ∈ usesOfList 0 body ctx, u.Owned body :=
  owned_of_mem_uses_of_drop body ctx rfl

end Stmt

end BodyCheck
