import BodyCheck.Proofs.AsBuilt
import BodyCheck.Proofs.Attribution

/-!
# Faults

An analysis ends in a fault just if it comes to an assertion of nothing, or to a case outside of a
switch with nothing wrong in its expression, and it ends there.

## Main definitions

* `Stmt.ownerAt` — what the list at a place in a body belongs to.
* `Stmt.WellFormed` — a statement that is not at fault in a list with the given owner.
* `Visit.Raises` — the visited statement is at fault.
* `Fault.IsOf` — a fault as it is reported of a statement: its kind, its text and its token.
* `Stmt.inOrder` — the statements of a tree, in the order in which they are written.
* `EndsAt` and `ChangesVisited` — how an analysis with the given visits ends, and what it changes.

## Main statements

* `Simple.analyzeCase_cases` — the ways in which the analysis of a case can go.
* `Visit.fault?_eq_some_iff` — a statement is at fault for one of two reasons.
* `Stmt.endsAt_visitsOfList` — the fault of an analysis is that of its last visit.
* `Stmt.changesVisited_visitsOfList` — statements that are not visited stay as they are.
* `Stmt.faults_at_first_flaw` — when an analysis faults, and what has been done by then.

## Design notes

What a statement raises by itself, `Visit.fault?`, is read off its own analysis, and only then
related to what is written around it.  So the induction over the tree knows nothing of cases and
assertions.
-/

namespace BodyCheck

/-! ## Simple statements -/

namespace Owner

/-- A switch is what has a subject to hold cases against. -/
theorem isSwitch_eq (owner : Owner) : owner.isSwitch = owner.subject?.isSome := by
  cases owner with
  | breakable kind label => cases kind <;> rfl
  | _ => rfl

/-- A switch is one in the tree as well as on the stack. -/
theorem isSwitch_asWritten (owner : Owner) : owner.asWritten.isSwitch = owner.isSwitch := by
  cases owner with
  | breakable kind label => cases kind <;> rfl
  | _ => rfl

end Owner

namespace Simple

variable {s : Simple} {ctx : Context} {fault : Fault}

/-- The analysis of a case finds its expression wrong, holds it against the subject of the switch
that it stands in, or finds that it stands in none. -/
theorem analyzeCase_cases (keyword : Token) (e : Expr) (ctx : Context) :
    let checked := e.analyze ctx
    (checked.ok = false ∧
      analyzeCase keyword e ctx = .done (caseLabel keyword checked.expr) checked.ctx) ∨
    (∃ subject, checked.ok = true ∧ ctx.stack.top.owner.subject? = some subject ∧
      analyzeCase keyword e ctx = .done (caseLabel keyword checked.expr)
        (checked.ctx.reportAny (Rule.case? subject checked.expr.ty?) keyword)) ∨
    (checked.ok = true ∧ ctx.stack.top.owner.subject? = none ∧
      analyzeCase keyword e ctx
        = ⟨caseLabel keyword checked.expr, checked.ctx, some ⟨.caseOutsideSwitch, keyword⟩⟩) := by
  intro checked
  have sameOwner : checked.ctx.stack.top.owner = ctx.stack.top.owner :=
    (e.analyze_extends ctx).owner_top
  cases ok : checked.ok with
  | false =>
    refine .inl ⟨rfl, ?_⟩
    simp [analyzeCase, checked, ok]
  | true =>
    rw [← sameOwner]
    cases inside : checked.ctx.stack.top.owner.subject? with
    | some subject =>
      refine .inr (.inl ⟨subject, rfl, rfl, ?_⟩)
      simp [analyzeCase, checked, ok, inside]
    | none =>
      refine .inr (.inr ⟨rfl, rfl, ?_⟩)
      simp [analyzeCase, checked, ok, inside]

/-- A simple statement is at fault if it asserts nothing, or if it is a case outside of a switch
whose expression is not wrong. -/
theorem fault_analyze_iff :
    (s.analyze ctx).fault = some fault ↔
      (∃ keyword, s = assert keyword [] ∧ fault = ⟨.emptyAssertion, keyword⟩) ∨
      ∃ keyword e, s = caseLabel keyword e ∧ ctx.stack.top.owner.isSwitch = false ∧
        (e.analyze ctx).ok = true ∧ fault = ⟨.caseOutsideSwitch, keyword⟩ := by
  cases s with
  | assert keyword exprs =>
    cases exprs with
    | nil => simp [analyze, eq_comm (a := fault)]
    | cons e es => simp [analyze]
  | caseLabel keyword e =>
    rw [Owner.isSwitch_eq, analyze]
    rcases analyzeCase_cases keyword e ctx with
      ⟨wrong, step⟩ | ⟨subject, ok, inside, step⟩ | ⟨ok, outside, step⟩
    · rw [step]
      simp [wrong]
    · rw [step]
      simp [inside]
    · rw [step]
      constructor
      · rintro ⟨⟩
        exact .inr ⟨keyword, e, rfl, by rw [outside]; rfl, ok, rfl⟩
      · rintro (⟨_, ⟨⟩, -⟩ | ⟨_, _, ⟨⟩, -, -, rfl⟩)
        rfl
  | _ => simp [analyze]

/-- A statement at fault has no diagnostic. -/
theorem diagnostics_of_fault (h : (s.analyze ctx).fault = some fault) :
    (s.analyze ctx).ctx.diagnostics = ctx.diagnostics := by
  rcases fault_analyze_iff.mp h with ⟨keyword, rfl, -⟩ | ⟨keyword, e, rfl, outside, ok, -⟩
  · rfl
  · rw [analyze] at h ⊢
    rcases analyzeCase_cases keyword e ctx with
      ⟨-, step⟩ | ⟨subject, -, -, step⟩ | ⟨ok, -, step⟩
    · rw [step] at h
      cases h
    · rw [step] at h
      cases h
    · rw [step]
      exact e.diagnostics_of_ok ctx ok

end Simple

/-! ## Visits -/

namespace Visit

/-- The fault that the visited statement raises by itself. -/
def fault? (v : Visit) : Option Fault :=
  match v.stmt with
  | .simple s => (s.analyze v.ctx).fault
  | _ => none

/-- The visited statement is at fault in a list with the given owner: it asserts nothing, or it is a
case, does not stand directly in the body of a switch, and nothing is wrong with its expression. -/
inductive Raises (owner : Owner) (v : Visit) : Fault → Prop
  | emptyAssertion (keyword : Token) (isAssert : v.stmt = .simple (.assert keyword [])) :
      Raises owner v ⟨.emptyAssertion, keyword⟩
  | caseOutsideSwitch (keyword : Token) (e : Expr)
      (isCase : v.stmt = .simple (.caseLabel keyword e)) (outside : owner.isSwitch = false)
      (ok : (e.analyze v.ctx).ok = true) : Raises owner v ⟨.caseOutsideSwitch, keyword⟩

variable {v : Visit} {owner : Owner} {fault : Fault}

/-- A statement raises a fault by itself for these reasons only. -/
theorem fault?_eq_some_iff (sameKind : v.ctx.stack.top.owner.isSwitch = owner.isSwitch) :
    v.fault? = some fault ↔ v.Raises owner fault := by
  constructor
  · intro raised
    rw [fault?] at raised
    split at raised
    · rename_i s isSimple
      rcases Simple.fault_analyze_iff.mp raised with
        ⟨keyword, rfl, rfl⟩ | ⟨keyword, e, rfl, outside, ok, rfl⟩
      · exact .emptyAssertion keyword isSimple
      · exact .caseOutsideSwitch keyword e isSimple (sameKind ▸ outside) ok
    · cases raised
  · rintro (⟨keyword, isAssert⟩ | ⟨keyword, e, isCase, outside, ok⟩)
    · rw [fault?, isAssert]
      exact Simple.fault_analyze_iff.mpr (.inl ⟨keyword, rfl, rfl⟩)
    · rw [fault?, isCase]
      exact Simple.fault_analyze_iff.mpr
        (.inr ⟨keyword, e, rfl, sameKind.trans outside, ok, rfl⟩)

/-- At a visit that raises a fault nothing is found. -/
theorem found_of_fault? (h : v.fault? = some fault) : v.found = [] := by
  rw [fault?] at h
  split at h
  · rename_i s isSimple
    -- What is found here is found just as well if nothing was found before.
    rw [← v.ctx.prepend_fresh, Simple.analyze_prepend] at h
    rw [found, isSimple]
    exact Simple.diagnostics_of_fault h
  · cases h

end Visit

/-! ## The end of an analysis -/

/-- An analysis without a fault has no visit that raises one, and an analysis with a fault has it
from its last visit and from no other. -/
def EndsAt : Option Fault → List Visit → Prop
  | none, visits => ∀ v ∈ visits, v.fault? = none
  | some fault, visits =>
    ∃ before v, visits = before ++ [v] ∧ v.fault? = some fault ∧ ∀ u ∈ before, u.fault? = none

namespace EndsAt

variable {α β : Type} {fault : Option Fault} {visits : List Visit}

/-- Nothing changes if the visits are seen from the list around. -/
theorem inside (h : EndsAt fault visits) (step : Nat × Slot) :
    EndsAt fault (visits.map (.inside step)) := by
  cases fault with
  | none =>
    intro v mem
    obtain ⟨u, mem', rfl⟩ := List.mem_map.mp mem
    exact h u mem'
  | some fault =>
    obtain ⟨before, v, rfl, raised, quiet⟩ := h
    refine ⟨before.map (.inside step), v.inside step, List.map_append, raised, ?_⟩
    intro u mem
    obtain ⟨w, mem', rfl⟩ := List.mem_map.mp mem
    exact quiet w mem'

/-- Visits without a fault may come before. -/
theorem append (quiet : EndsAt none visits) {more : List Visit} (h : EndsAt fault more) :
    EndsAt fault (visits ++ more) := by
  cases fault with
  | none =>
    intro v mem
    rcases List.mem_append.mp mem with mem | mem
    · exact quiet v mem
    · exact h v mem
  | some fault =>
    obtain ⟨before, v, rfl, raised, quiet'⟩ := h
    refine ⟨visits ++ before, v, (List.append_assoc ..).symm, raised, ?_⟩
    intro u mem
    rcases List.mem_append.mp mem with mem | mem
    · exact quiet u mem
    · exact quiet' u mem

theorem cons (h : EndsAt fault visits) {v : Visit} (quiet : v.fault? = none) :
    EndsAt fault (v :: visits) := by
  have alone : EndsAt none [v] := by
    intro u mem
    rw [List.mem_singleton.mp mem]
    exact quiet
  exact alone.append h

/-- What follows is visited just if there is no fault before it. -/
theorem andThen {outcome : Outcome α} (h : EndsAt outcome.fault visits) (following : β)
    {analyze : Context → Outcome β} {later : Context → List Visit}
    (rest : ∀ ctx, EndsAt (analyze ctx).fault (later ctx)) :
    EndsAt (outcome.andThen following analyze).fault (visits ++ outcome.behind later) := by
  obtain ⟨node, ctx, _ | fault⟩ := outcome
  · exact append h (rest ctx)
  · show EndsAt (some fault) (visits ++ [])
    rw [List.append_nil]
    exact h

/-- There is a fault just if a visited statement raises it. -/
theorem eq_some_iff (h : EndsAt fault visits) {raised : Fault} :
    fault = some raised ↔ ∃ v ∈ visits, v.fault? = some raised := by
  cases fault with
  | none =>
    constructor
    · exact nofun
    · rintro ⟨v, mem, isRaised⟩
      rw [h v mem] at isRaised
      cases isRaised
  | some first =>
    obtain ⟨before, last, rfl, isFirst, quiet⟩ := h
    constructor
    · rintro ⟨⟩
      exact ⟨last, List.mem_append_right _ (.head _), isFirst⟩
    · rintro ⟨v, mem, isRaised⟩
      rcases List.mem_append.mp mem with mem | mem
      · rw [quiet v mem] at isRaised
        cases isRaised
      · rw [← isRaised, List.mem_singleton.mp mem, isFirst]

/-- A visit at which a fault is raised is the last one. -/
theorem eq_nil_of_fault? {before after : List Visit} {v : Visit} {raised : Fault}
    (h : EndsAt fault (before ++ v :: after)) (isRaised : v.fault? = some raised) : after = [] := by
  have here : v ∈ before ++ v :: after := List.mem_append_right _ (.head _)
  rw [h.eq_some_iff.mpr ⟨v, here, isRaised⟩] at h
  obtain ⟨others, last, split, -, quiet⟩ := h
  rcases after.eq_nil_or_concat with rfl | ⟨init, final, rfl⟩
  · rfl
  · have whole : (before ++ v :: init) ++ [final] = others ++ [last] := by simpa using split
    have among : v ∈ others := by
      rw [← List.append_inj_left' whole rfl]
      exact List.mem_append_right _ (.head _)
    rw [quiet v among] at isRaised
    cases isRaised

end EndsAt

namespace Stmt

open EndsAt

/-- A list in a block of its own ends as the list does. -/
theorem endsAt_within (body : List Stmt)
    (h : ∀ ctx, EndsAt (analyzeList body ctx).fault (visitsOfList 0 body ctx)) (ctx : Context)
    (owner : Owner) (step : Nat × Slot) :
    EndsAt (ctx.within owner (analyzeList body)).fault
      ((visitsOfList 0 body (ctx.enter owner)).map (.inside step)) :=
  (h _).inside step

mutual

/-- The fault of a statement is that of the last visit in it. -/
theorem endsAt_visits (i : Nat) : (s : Stmt) → (ctx : Context) →
    EndsAt (s.analyze ctx).fault (s.visits i ctx)
  | simple s, ctx => by
    rw [analyze, visits, Outcome.fault_passing, Outcome.fault_map]
    cases raised : (s.analyze ctx).fault with
    | none =>
      intro v mem
      rw [List.mem_singleton.mp mem]
      exact raised
    | some fault => exact ⟨[], _, rfl, raised, nofun⟩
  | breakable keyword label header body, ctx => by
    rw [analyze, visits, Outcome.fault_passing]
    refine cons ?_ rfl
    exact endsAt_within body (endsAt_visitsOfList 0 body) _ _ _
  | ifElse keyword cond onTrue onFalse, ctx => by
    rw [analyze, visits, Outcome.fault_passing]
    refine cons ?_ rfl
    exact andThen (endsAt_within onTrue (endsAt_visitsOfList 0 onTrue) _ .branch _) onFalse
      fun ctx => endsAt_within onFalse (endsAt_visitsOfList 0 onFalse) ctx .branch _
  | guarded keyword body caught handler finalizer, ctx => by
    rw [analyze, visits, Outcome.fault_passing]
    have inside := endsAt_within body (endsAt_visitsOfList 0 body) ctx .guarded (i, .body)
    refine cons ?_ rfl
    exact (inside.andThen handler (endsAt_visitsOfPart _ handler)).andThen finalizer
      (endsAt_visitsOfPart _ finalizer)

/-- The fault of the analysis of a list is that of its last visit. -/
theorem endsAt_visitsOfList (i : Nat) : (body : List Stmt) → (ctx : Context) →
    EndsAt (analyzeList body ctx).fault (visitsOfList i body ctx)
  | [], ctx => by
    rw [analyzeList, visitsOfList]
    exact nofun
  | s :: rest, ctx => by
    rw [analyzeList, visitsOfList, Outcome.fault_map]
    exact andThen (endsAt_visits i s ctx) rest (endsAt_visitsOfList (i + 1) rest)

theorem endsAt_visitsOfPart (step : Nat × Slot) : (part : Option (List Stmt)) →
    (ctx : Context) → EndsAt (analyzePart part ctx).fault (visitsOfPart step part ctx)
  | none, ctx => by
    rw [analyzePart, visitsOfPart]
    exact nofun
  | some body, ctx => by
    rw [analyzePart, visitsOfPart]
    exact endsAt_within body (endsAt_visitsOfList 0 body) _ _ step

end

end Stmt

/-! ## What an analysis changes -/

namespace Stmt

mutual

/-- The statement with those inside it, in the order in which they are written. -/
def inOrder : Stmt → List Stmt
  | simple s => [simple s]
  | breakable keyword label header body =>
    breakable keyword label header body :: inOrderOfList body
  | ifElse keyword cond onTrue onFalse =>
    ifElse keyword cond onTrue onFalse :: (inOrderOfList onTrue ++ inOrderOfList onFalse)
  | guarded keyword body caught handler finalizer =>
    guarded keyword body caught handler finalizer ::
      (inOrderOfList body ++ inOrderOfPart handler ++ inOrderOfPart finalizer)

/-- The statements of a list with those inside them. -/
def inOrderOfList : List Stmt → List Stmt
  | [] => []
  | s :: rest => s.inOrder ++ inOrderOfList rest

/-- The statements of a part of a try statement that may be absent. -/
def inOrderOfPart : Option (List Stmt) → List Stmt
  | none => []
  | some body => inOrderOfList body

end

end Stmt

/-- An analysis that makes of the statements `before` the statements `after` changes no more of them
than it visits, from the first one on, and visits all of them if it comes to its end. -/
structure ChangesVisited (fault : Option Fault) (visits : List Visit) (before after : List Stmt) :
    Prop where
  length : after.length = before.length
  behind : after.drop visits.length = before.drop visits.length
  toTheEnd : fault = none → visits.length = before.length

namespace ChangesVisited

variable {α β : Type} {fault : Option Fault} {visits : List Visit} {before after : List Stmt}

/-- Nothing changes if the visits are seen from the list around. -/
theorem inside (h : ChangesVisited fault visits before after) (step : Nat × Slot) :
    ChangesVisited fault (visits.map (.inside step)) before after where
  length := h.length
  behind := by
    rw [List.length_map]
    exact h.behind
  toTheEnd ended := by
    rw [List.length_map]
    exact h.toTheEnd ended

/-- A visit to one statement more may change that statement. -/
theorem cons (h : ChangesVisited fault visits before after) (v : Visit) (s s' : Stmt) :
    ChangesVisited fault (v :: visits) (s :: before) (s' :: after) where
  length := congrArg (· + 1) h.length
  behind := h.behind
  toTheEnd ended := congrArg (· + 1) (h.toTheEnd ended)

/-- After a fault, what follows is neither visited nor changed. -/
theorem andThen {outcome : Outcome α} {following : β} {analyze : Context → Outcome β}
    {later : Context → List Visit} {f : α → List Stmt} {g : β → List Stmt}
    (h : ChangesVisited outcome.fault visits before (f outcome.node))
    (rest : ∀ ctx, ChangesVisited (analyze ctx).fault (later ctx) (g following)
      (g (analyze ctx).node)) :
    ChangesVisited (outcome.andThen following analyze).fault (visits ++ outcome.behind later)
      (before ++ g following)
      (f (outcome.andThen following analyze).node.1
        ++ g (outcome.andThen following analyze).node.2) := by
  obtain ⟨node, ctx, _ | raised⟩ := outcome
  · show ChangesVisited (analyze ctx).fault (visits ++ later ctx) (before ++ g following)
      (f node ++ g (analyze ctx).node)
    have all : visits.length = before.length := h.toTheEnd rfl
    have sameLength : (f node).length = before.length := h.length
    constructor
    · rw [List.length_append, List.length_append, sameLength, (rest ctx).length]
    · rw [List.length_append, all, List.drop_length_add_append, ← sameLength,
        List.drop_length_add_append, (rest ctx).behind]
    · intro ended
      rw [List.length_append, List.length_append, all, (rest ctx).toTheEnd ended]
  · show ChangesVisited (some raised) (visits ++ []) (before ++ g following)
      (f node ++ g following)
    have sameLength : (f node).length = before.length := h.length
    constructor
    · rw [List.length_append, List.length_append, sameLength]
    · rw [List.append_nil, List.drop_append, List.drop_append, h.behind, sameLength]
    · exact nofun

end ChangesVisited

namespace Stmt

open ChangesVisited

/-- A list in a block of its own is changed as the list is. -/
theorem changesVisited_within (body : List Stmt)
    (h : ∀ ctx, ChangesVisited (analyzeList body ctx).fault (visitsOfList 0 body ctx)
      (inOrderOfList body) (inOrderOfList (analyzeList body ctx).node))
    (ctx : Context) (owner : Owner) (step : Nat × Slot) :
    ChangesVisited (ctx.within owner (analyzeList body)).fault
      ((visitsOfList 0 body (ctx.enter owner)).map (.inside step))
      (inOrderOfList body) (inOrderOfList (ctx.within owner (analyzeList body)).node) :=
  (h _).inside step

mutual

/-- The analysis of a statement changes no more than it visits. -/
theorem changesVisited_visits (i : Nat) : (s : Stmt) → (ctx : Context) →
    ChangesVisited (s.analyze ctx).fault (s.visits i ctx) s.inOrder (s.analyze ctx).node.inOrder
  | simple s, ctx => by
    rw [analyze, visits, Outcome.node_passing]
    exact ⟨rfl, rfl, fun _ => rfl⟩
  | breakable keyword label header body, ctx => by
    rw [analyze, visits, Outcome.fault_passing, Outcome.node_passing]
    exact cons (changesVisited_within body (changesVisited_visitsOfList 0 body) _ _ _) _ _ _
  | ifElse keyword cond onTrue onFalse, ctx => by
    rw [analyze, visits, Outcome.fault_passing, Outcome.node_passing]
    have insideTrue := changesVisited_within onTrue (changesVisited_visitsOfList 0 onTrue)
      (cond.analyze ctx).ctx .branch (i, .onTrue)
    exact cons (insideTrue.andThen fun ctx =>
      changesVisited_within onFalse (changesVisited_visitsOfList 0 onFalse) ctx .branch _) _ _ _
  | guarded keyword body caught handler finalizer, ctx => by
    rw [analyze, visits, Outcome.fault_passing, Outcome.node_passing]
    have insideBody := changesVisited_within body (changesVisited_visitsOfList 0 body) ctx .guarded
      (i, .body)
    have withHandler := insideBody.andThen (changesVisited_visitsOfPart (i, .handler) handler)
    let both (parts : List Stmt × Option (List Stmt)) : List Stmt :=
      inOrderOfList parts.1 ++ inOrderOfPart parts.2
    exact cons (andThen (f := both) withHandler
      (changesVisited_visitsOfPart (i, .finalizer) finalizer)) _ _ _

/-- The analysis of a list changes no more statements than it visits. -/
theorem changesVisited_visitsOfList (i : Nat) : (body : List Stmt) → (ctx : Context) →
    ChangesVisited (analyzeList body ctx).fault (visitsOfList i body ctx) (inOrderOfList body)
      (inOrderOfList (analyzeList body ctx).node)
  | [], ctx => by
    rw [analyzeList, visitsOfList]
    exact ⟨rfl, rfl, fun _ => rfl⟩
  | s :: rest, ctx => by
    rw [analyzeList, visitsOfList]
    exact (changesVisited_visits i s ctx).andThen (changesVisited_visitsOfList (i + 1) rest)

theorem changesVisited_visitsOfPart (step : Nat × Slot) : (part : Option (List Stmt)) →
    (ctx : Context) →
    ChangesVisited (analyzePart part ctx).fault (visitsOfPart step part ctx) (inOrderOfPart part)
      (inOrderOfPart (analyzePart part ctx).node)
  | none, ctx => by
    rw [analyzePart, visitsOfPart]
    exact ⟨rfl, rfl, fun _ => rfl⟩
  | some body, ctx => by
    rw [analyzePart, visitsOfPart]
    exact changesVisited_within body (changesVisited_visitsOfList 0 body) _ _ step

end

/-! ## Flaws -/

/-- What the list at a place in a body belongs to, as far as it is written; the body itself belongs
to what is around it. -/
def ownerAt (around : Owner) (place : Place) (body : List Stmt) : Owner :=
  (ownersAt place body).headD around

/-- The statement is not at fault in a list with the given owner: if it is a case, the list is the
body of a switch, and if it is an assertion, it asserts something. -/
def WellFormed (owner : Owner) : Stmt → Prop
  | simple (.caseLabel ..) => owner.isSwitch = true
  | simple (.assert _ exprs) => exprs ≠ []
  | _ => True

end Stmt

/-- The innermost list is that of a switch in the tree just if it is one on the stack. -/
theorem Owner.isSwitch_headD_map_asWritten (owners : List Owner) :
    ((owners.map asWritten).headD .function).isSwitch = (owners.headD .function).isSwitch := by
  cases owners with
  | nil => rfl
  | cons owner owners => exact owner.isSwitch_asWritten

/-- The innermost block is the first of the open ones, and the function body if there is none. -/
theorem BlockStack.owner_top (stack : BlockStack) :
    stack.top.owner = stack.owners.headD .function := by
  obtain ⟨_, _ | _⟩ := stack <;> rfl

/-- The fault as it is reported of a statement, at its keyword: an assertion of nothing makes the
tree malformed, and a case is a flaw in the logic. -/
def Fault.IsOf (fault : Fault) : Stmt → Prop
  | .simple (.assert keyword exprs) =>
    exprs = [] ∧ fault.flaw.kind = .malformed ∧
      fault.message = "assert statement without an expression" ∧ fault.token = keyword
  | .simple (.caseLabel keyword _) =>
    fault.flaw.kind = .logic ∧
      fault.message = "case statement outside of a switch body" ∧ fault.token = keyword
  | _ => False

namespace Visit

variable {v : Visit} {body : List Stmt} {owner : Owner} {fault : Fault}

/-- What a statement raises is reported of it in the kind and the words that are its own. -/
theorem Raises.isOf (h : v.Raises owner fault) : fault.IsOf v.stmt := by
  rcases h with ⟨keyword, isAssert⟩ | ⟨keyword, e, isCase, -, -⟩
  · rw [isAssert]
    exact ⟨rfl, rfl, rfl, rfl⟩
  · rw [isCase]
    exact ⟨rfl, rfl, rfl⟩

/-- A well-formed statement is not at fault. -/
theorem Raises.not_wellFormed (h : v.Raises owner fault) : ¬ v.stmt.WellFormed owner := by
  intro wellFormed
  rcases h with ⟨keyword, isAssert⟩ | ⟨keyword, e, isCase, outside, -⟩
  · rw [isAssert] at wellFormed
    exact wellFormed rfl
  · rw [isCase, Stmt.WellFormed, outside] at wellFormed
    cases wellFormed

/-- The innermost list at a visit is that of a switch just if the list around its site is. -/
theorem StandsIn.isSwitch_top {ctx : Context} (h : v.StandsIn body ctx.stack.owners) :
    v.ctx.stack.top.owner.isSwitch
      = (Stmt.ownerAt ctx.stack.top.owner v.site.place body).isSwitch := by
  rw [BlockStack.owner_top, BlockStack.owner_top, ← Owner.isSwitch_headD_map_asWritten, h.owners,
    Stmt.ownerAt]
  cases Stmt.ownersAt v.site.place body with
  | nil => exact Owner.isSwitch_headD_map_asWritten _
  | cons innermost others => rfl

end Visit

namespace Stmt

/-- **Faults.**  If every case stands directly in the body of a switch, or in a list that continues
one, and every assertion asserts something, the analysis comes to its end.  It ends in a fault just
if it visits a statement that raises this fault; the fault is of the kind and at the token of that
statement, that visit is the last one, nothing is found at it, what was found at the visits before
is kept, and the statements behind it stay as they are. -/
theorem faults_at_first_flaw (body : List Stmt) (ctx : Context) :
    let visits := visitsOfList 0 body ctx
    let outcome := analyzeList body ctx
    let owner (site : Site) : Owner := ownerAt ctx.stack.top.owner site.place body
    ((∀ site s, stmtAt? site body = some s → s.WellFormed (owner site)) → outcome.fault = none) ∧
    GoesThrough outcome.fault visits (sitesOfList 0 body) ∧
    (∀ v ∈ visits, stmtAt? v.site body = some v.stmt) ∧
    (∀ fault, outcome.fault = some fault ↔ ∃ v ∈ visits, v.Raises (owner v.site) fault) ∧
    ∀ before v after fault, visits = before ++ v :: after → v.Raises (owner v.site) fault →
      outcome.fault = some fault ∧ fault.IsOf v.stmt ∧ after = [] ∧ v.found = [] ∧
      outcome.ctx.diagnostics = ctx.diagnostics ++ before.flatMap Visit.found ∧
      (inOrderOfList outcome.node).drop visits.length
        = (inOrderOfList body).drop visits.length := by
  intro visits outcome owner
  have standsIn : ∀ v ∈ visits, v.StandsIn body ctx.stack.owners :=
    standsIn_of_mem_visitsOfList body ctx
  have raises_iff (fault : Fault) (v : Visit) (mem : v ∈ visits) :
      v.fault? = some fault ↔ v.Raises (owner v.site) fault :=
    Visit.fault?_eq_some_iff (standsIn v mem).isSwitch_top
  have ends : EndsAt outcome.fault visits := endsAt_visitsOfList 0 body ctx
  have fault_iff (fault : Fault) :
      outcome.fault = some fault ↔ ∃ v ∈ visits, v.Raises (owner v.site) fault := by
    rw [ends.eq_some_iff]
    exact exists_congr fun v => and_congr_right (raises_iff fault v)
  refine ⟨?_, goesThrough_visitsOfList 0 body ctx, fun v mem => (standsIn v mem).stmt, fault_iff,
    ?_⟩
  · intro wellFormed
    cases faulty : outcome.fault with
    | none => rfl
    | some fault =>
      obtain ⟨v, mem, raises⟩ := (fault_iff fault).mp faulty
      exact absurd (wellFormed v.site v.stmt (standsIn v mem).stmt) raises.not_wellFormed
  · intro before v after fault split raises
    have mem : v ∈ visits := by rw [split]; exact List.mem_append_right _ (.head _)
    have raised : v.fault? = some fault := (raises_iff fault v mem).mpr raises
    have nothing : v.found = [] := Visit.found_of_fault? raised
    have isLast : after = [] := by
      rw [split] at ends
      exact ends.eq_nil_of_fault? raised
    refine ⟨(fault_iff fault).mpr ⟨v, mem, raises⟩, raises.isOf, isLast, nothing, ?_,
      (changesVisited_visitsOfList 0 body ctx).behind⟩
    rw [(attributes_visitsOfList 0 body ctx).found, show visitsOfList 0 body ctx = _ from split,
      isLast, List.flatMap_append, List.flatMap_singleton, nothing, List.append_nil]

/-- A case may stand by itself in a list that continues a switch.  In an arm of an if statement it
is at fault although the if statement stands in a switch, unless its expression is wrong; and the
assertions of nothing behind it are not visited any more.  An assertion of nothing that is visited
makes the tree malformed, also behind something wrong. -/
theorem faults_at_first_flaw_of_arm :
    let one : Expr := .value (.synthetic "1") (.typed .int) none
    let wrong : Expr := .value (.synthetic "w") (.failing "wrong") none
    let label (e : Expr) : Stmt := .simple (.caseLabel (.synthetic "case") e)
    let empty : Stmt := .simple (.assert (.synthetic "assert") [])
    let body : List Stmt :=
      [.breakable (.synthetic "switch") none (.switch one)
        [label one, .ifElse (.synthetic "if") one [label wrong, label one, empty] []], empty]
    let ctx := Context.start default .empty default
    let outcome := analyzeList body ctx
    let malformed := analyzeList [label wrong, empty, label one] ctx
    (analyzeList [label one] (ctx.enter (.breakable (.switch none) none))).fault = none ∧
      (∃ fault, outcome.fault = some fault ∧ fault.flaw.kind = .logic ∧
        fault.token = .synthetic "case") ∧
      outcome.ctx.diagnostics = [⟨.stated .type "wrong", .synthetic "w"⟩] ∧
      (inOrderOfList outcome.node).drop 5 = [empty, empty] ∧
      (∃ fault, malformed.fault = some fault ∧ fault.flaw.kind = .malformed ∧
        fault.token = .synthetic "assert") ∧
      malformed.ctx.diagnostics = [⟨.stated .type "wrong", .synthetic "w"⟩] := by
  intro one wrong label empty body ctx outcome malformed
  have wellFormed : (analyzeList [label one]
      (ctx.enter (.breakable (.switch none) none))).fault = none := by
    apply (faults_at_first_flaw [label one] (ctx.enter (.breakable (.switch none) none))).1
    rintro ⟨place, index⟩ s isAt
    cases place with
    | nil =>
      cases index with
      | zero =>
        cases isAt
        exact rfl
      | succ index => cases isAt
    | cons step rest =>
      obtain ⟨_ | i, slot⟩ := step
      · cases isAt
      · cases isAt
  let visits := visitsOfList 0 body ctx
  let others := visitsOfList 0 [label wrong, empty, label one] ctx
  have five : visits.length = 5 := by decide +kernel
  have two : others.length = 2 := by decide +kernel
  have atCase : visits[4].Raises .branch ⟨.caseOutsideSwitch, .synthetic "case"⟩ :=
    .caseOutsideSwitch _ one rfl rfl rfl
  have atAssert : others[1].Raises .function ⟨.emptyAssertion, .synthetic "assert"⟩ :=
    .emptyAssertion _ rfl
  obtain ⟨fault, isLogic, -, -, found, unchanged⟩ := (faults_at_first_flaw body ctx).2.2.2.2
    _ visits[4] _ _ (eq_take_append_cons_drop _) atCase
  obtain ⟨fault', isMalformed, -, -, found', -⟩ :=
    (faults_at_first_flaw [label wrong, empty, label one] ctx).2.2.2.2
      _ others[1] _ _ (eq_take_append_cons_drop _) atAssert
  rw [show (visitsOfList 0 body ctx).length = 5 from five] at unchanged
  refine ⟨wellFormed, ⟨_, fault, isLogic.1, isLogic.2.2⟩, ?_, unchanged,
    ⟨_, fault', isMalformed.2.1, isMalformed.2.2.2⟩, ?_⟩
  · rw [found]
    decide +kernel
  · rw [found']
    decide +kernel

end Stmt

end BodyCheck
