import BodyCheck.Proofs.Rules
import BodyCheck.Proofs.Uses

/-!
# Visibility of assignments

Which reads of locals are accepted.  A read finds its variable set if it was set at the beginning,
or if an assignment that the analysis has finished with before stands in the same list or in one of
the lists around it.

## Main definitions

* `SeenFrom` — whether an assignment among earlier uses is visible from a place.
* `KnownAt` — what an analysis knows of the locals at a place, told from the uses before.
* `Context.aboutLocals` — the diagnostics about locals.
* `Context.Tracks` — an analysis that knows what the uses on its way tell it, and nothing else.

## Main statements

* `Stmt.tracks_uses`, `Stmt.tracks_usesOfList` — the analysis of statements tracks their uses.
* `Stmt.aboutLocals_analyzeList` — everything that is found about locals is found at a use.
* `Stmt.read_accepted_iff` — which reads are accepted, and what is reported of the others.

## Design notes

The stack of blocks does not occur in the invariant.  What is known in a list is a copy of what is
known around it, so it is told from the uses that stand in lists around the place; leaving the list
drops just the uses that are seen from nowhere else.  Two uses that stand in different lists of the
same statement, or in lists of different statements, never see each other, and this is where the
places of uses in a statement have to be told apart.
-/

namespace BodyCheck

/-! ## What is seen from a place -/

/-- Among the uses is an assignment to the variable that came to its end, in the list at the place
or in one of the lists around it. -/
def SeenFrom (past : List Use) (place : Place) (name : String) : Prop :=
  ∃ u ∈ past, u.place <+: place ∧ u.sets? = some name

instance (past : List Use) (place : Place) (name : String) : Decidable (SeenFrom past place name) :=
  inferInstanceAs (Decidable (∃ u ∈ past, u.place <+: place ∧ u.sets? = some name))

/-- No use of the first part is seen from one of the second, unless it is seen from everywhere. -/
def Apart (p q : List Use) : Prop :=
  ∀ u ∈ p, ∀ v ∈ q, u.place <+: v.place → u.place = []

/-- Uses that stand in the list at hand are seen from everywhere. -/
theorem AllHere.apart {p : List Use} (h : AllHere p) (q : List Use) : Apart p q := by
  intro u mem _ _ _
  exact h u mem

/-- Uses are apart if they are in lists that different statements or lists lead to. -/
theorem apart_of_heads {p q : List Use} (first : Nat × Slot → Prop)
    (hp : ∀ u ∈ p, ∀ step ∈ u.place.head?, first step)
    (hq : ∀ v ∈ q, ∀ step ∈ v.place.head?, ¬ first step) : Apart p q := by
  intro u memU v memV seen
  obtain ⟨place, expr, ctx⟩ := u
  cases place with
  | nil => rfl
  | cons step rest =>
    obtain ⟨more, split⟩ := seen
    have headV : v.place.head? = some step := by
      rw [← split]
      rfl
    exact absurd (hp _ memU step rfl) (hq v memV step headV)

/-- Uses in one list of a statement are apart from those in another. -/
theorem AllInside.apart {a b : Nat × Slot} {p q : List Use} (hp : AllInside a p)
    (hq : AllInside b q) (ne : a ≠ b) : Apart p q := by
  refine apart_of_heads (· = a) ?_ ?_
  · intro u mem step isHead
    rw [hp u mem] at isHead
    exact (Option.some.inj isHead).symm
  · intro v mem step isHead
    rw [hq v mem] at isHead
    rw [← Option.some.inj isHead]
    exact ne.symm

theorem Apart.append {p q r : List Use} (hp : Apart p r) (hq : Apart q r) : Apart (p ++ q) r := by
  intro u memU v memV seen
  rcases List.mem_append.1 memU with mem | mem
  · exact hp u mem v memV seen
  · exact hq u mem v memV seen

/-- An assignment is seen among two lists of uses just if it is seen among one of them. -/
theorem seenFrom_append {p q : List Use} {place : Place} {name : String} :
    SeenFrom (p ++ q) place name ↔ SeenFrom p place name ∨ SeenFrom q place name := by
  simp [SeenFrom, or_and_right, exists_or]

/-- From a list inside, the uses in its own block are seen as they are from the list itself. -/
theorem seenFrom_map_inside {past : List Use} {step : Nat × Slot} {place : Place} {name : String} :
    SeenFrom (past.map (.inside step)) (step :: place) name ↔ SeenFrom past place name := by
  constructor
  · rintro ⟨v, mem, seen, sets⟩
    obtain ⟨u, memPast, rfl⟩ := List.mem_map.1 mem
    exact ⟨u, memPast, (List.prefix_cons_inj step).1 seen, sets⟩
  · rintro ⟨u, mem, seen, sets⟩
    exact ⟨u.inside step, List.mem_map_of_mem mem, (List.prefix_cons_inj step).2 seen, sets⟩

/-- From the list around a statement, nothing inside the statement is seen. -/
theorem not_seenFrom_map_inside {past : List Use} {step : Nat × Slot} {name : String} :
    ¬ SeenFrom (past.map (.inside step)) [] name := by
  simp [SeenFrom]

/-- What an analysis knows of the locals at a place, given what was known at the beginning and the
uses that it has come to since. -/
structure KnownAt (entry : Locals) (past : List Use) (place : Place) (locals : Locals) : Prop where
  declared : ∀ name, locals.status? name = none ↔ entry.status? name = none
  set : ∀ name, locals.status? name = some .set ↔
    entry.status? name = some .set ∨ SeenFrom past place name

namespace KnownAt

variable {a b c : Locals} {p q : List Use} {place : Place}

/-- At the beginning nothing is known but what was known. -/
theorem refl (a : Locals) (place : Place) : KnownAt a [] place a where
  declared _ := Iff.rfl
  set name := by simp [SeenFrom]

/-- What was known at the beginning may be told from earlier uses. -/
theorem trans (hp : KnownAt a p [] b) (hq : KnownAt b q place c)
    (apart : ∀ u ∈ p, u.place <+: place → u.place = []) : KnownAt a (p ++ q) place c where
  declared name := (hq.declared name).trans (hp.declared name)
  set name := by
    have outside : SeenFrom p place name ↔ SeenFrom p [] name := by
      refine exists_congr fun u => and_congr_right fun mem => and_congr_left fun _ => ?_
      constructor
      · intro seen
        exact List.prefix_nil.2 (apart u mem seen)
      · intro here
        rw [List.prefix_nil.1 here]
        exact List.nil_prefix
    rw [hq.set, hp.set, seenFrom_append, outside, or_assoc]

/-- What is known in a list is told from the uses in it, and the list may be seen from around. -/
theorem inside (h : KnownAt a p place b) (step : Nat × Slot) :
    KnownAt a (p.map (.inside step)) (step :: place) b where
  declared := h.declared
  set name := by rw [h.set, seenFrom_map_inside]

end KnownAt

/-- Every read in `uses` knows what it should know, given the uses in `past` before them. -/
def Explained (entry : Locals) (past : List Use) : List Use → Prop
  | [] => True
  | u :: rest =>
    (u.isRead = true → KnownAt entry past u.place u.ctx.locals) ∧ Explained entry (past ++ [u]) rest

theorem explained_append {entry : Locals} {past p q : List Use} :
    Explained entry past (p ++ q) ↔ Explained entry past p ∧ Explained entry (past ++ p) q := by
  induction p generalizing past with
  | nil => simp [Explained]
  | cons u rest ih => simp [Explained, ih, and_assoc]

namespace Explained

variable {a b : Locals} {past p q : List Use}

/-- More uses may come before if they are apart from those that are explained. -/
theorem behind (hp : KnownAt a p [] b) (hq : Explained b past q) (apart : Apart p q) :
    Explained a (p ++ past) q := by
  induction q generalizing past with
  | nil => trivial
  | cons u rest ih =>
    obtain ⟨known, later⟩ := hq
    refine ⟨fun isRead => ?_, ?_⟩
    · exact hp.trans (known isRead) fun v mem => apart v mem u List.mem_cons_self
    · rw [List.append_assoc]
      exact ih later fun v memV w memW => apart v memV w (List.mem_cons_of_mem _ memW)

theorem inside (h : Explained a past p) (step : Nat × Slot) :
    Explained a (past.map (.inside step)) (p.map (.inside step)) := by
  induction p generalizing past with
  | nil => trivial
  | cons u rest ih =>
    obtain ⟨known, later⟩ := h
    have later' := ih later
    rw [List.map_append] at later'
    exact ⟨fun isRead => (known isRead).inside step, later'⟩

end Explained

/-! ## Analyses that track their uses -/

/-- Whether a problem is that a local is not declared, or read before it is set. -/
def Problem.isAboutLocal : Problem → Bool
  | uninitialized _ | undeclared _ => true
  | _ => false

namespace Context

/-- What has been found about locals. -/
def aboutLocals (ctx : Context) : List Diagnostic :=
  ctx.diagnostics.filter (·.problem.isAboutLocal)

theorem aboutLocals_report {ctx : Context} {problem : Problem} (token : Token)
    (h : problem.isAboutLocal = false) :
    (ctx.report problem token).aboutLocals = ctx.aboutLocals := by
  simp [aboutLocals, h]

theorem aboutLocals_report_of_isAboutLocal {ctx : Context} {problem : Problem} (token : Token)
    (h : problem.isAboutLocal = true) :
    (ctx.report problem token).aboutLocals = ctx.aboutLocals ++ [⟨problem, token⟩] := by
  simp [aboutLocals, h]

theorem aboutLocals_reportAny {ctx : Context} {problem : Option Problem} (token : Token)
    (h : ∀ p ∈ problem, p.isAboutLocal = false) :
    (ctx.reportAny problem token).aboutLocals = ctx.aboutLocals := by
  cases problem with
  | none => rfl
  | some problem => exact aboutLocals_report token (h problem rfl)

/-- The analysis from `before` to `after` knows what the uses on its way tell it and nothing else:
at every read, and behind them all.  Whatever it finds about locals it finds at one of them. -/
structure Tracks (before : Context) (uses : List Use) (after : Context) : Prop where
  explained : Explained before.locals [] uses
  known : KnownAt before.locals uses [] after.locals
  found : after.aboutLocals = before.aboutLocals ++ uses.filterMap Use.finding?

namespace Tracks

variable {a b c : Context} {p q : List Use}

/-- What is found at a use on the way is among the diagnostics at the end. -/
theorem reported (h : a.Tracks p b) {u : Use} (isUse : u ∈ p) :
    ∀ found ∈ u.finding?, found ∈ b.diagnostics := by
  intro found isFound
  have atEnd : found ∈ b.aboutLocals := by
    rw [h.found]
    exact List.mem_append_right _ (List.mem_filterMap.2 ⟨u, isUse, isFound⟩)
  exact (List.mem_filter.1 atEnd).1

theorem nil (locals : b.locals = a.locals) (found : b.aboutLocals = a.aboutLocals) :
    a.Tracks [] b where
  explained := trivial
  known := locals ▸ .refl ..
  found := by simp [found]

theorem congr (h : a.Tracks p b) (locals : c.locals = b.locals)
    (found : c.aboutLocals = b.aboutLocals) : a.Tracks p c where
  explained := h.explained
  known := locals ▸ h.known
  found := found.trans h.found

theorem reportAny (h : a.Tracks p b) {problem : Option Problem} (token : Token)
    (other : ∀ p ∈ problem, p.isAboutLocal = false) : a.Tracks p (b.reportAny problem token) :=
  h.congr (locals_reportAny ..) (aboutLocals_reportAny token other)

/-- Uses that are apart are tracked one behind the other. -/
theorem append (hp : a.Tracks p b) (hq : b.Tracks q c) (apart : Apart p q) :
    a.Tracks (p ++ q) c where
  explained := by
    have later := hq.explained.behind hp.known apart
    rw [List.append_nil] at later
    exact explained_append.2 ⟨hp.explained, later⟩
  known := hp.known.trans hq.known fun _ _ here => List.prefix_nil.1 here
  found := by rw [hq.found, hp.found, List.filterMap_append, List.append_assoc]

/-- Behind a list in a block of its own, what was known before is known again. -/
theorem within {α : Type} {owner : Owner} {analyze : Context → Outcome α}
    (h : (a.enter owner).Tracks p (analyze (a.enter owner)).ctx)
    (extension : (a.enter owner).Extends (analyze (a.enter owner)).ctx) (step : Nat × Slot) :
    a.Tracks (p.map (.inside step)) (a.within owner analyze).ctx where
  explained := h.explained.inside step
  known := by
    have same : (a.within owner analyze).ctx.locals = a.locals :=
      congrArg BlockStack.locals (Extends.stack_within extension)
    rw [same]
    refine ⟨fun _ => Iff.rfl, fun name => ?_⟩
    simp [not_seenFrom_map_inside]
  found := by
    rw [Use.filterMap_finding?_inside]
    exact h.found

theorem passing {outcome : Outcome Stmt} (h : a.Tracks p outcome.ctx) :
    a.Tracks p outcome.passing.ctx := by
  obtain ⟨node, ctx, _ | fault⟩ := outcome
  · exact h
  · exact h.congr rfl rfl

/-- Behind a fault there are no more uses, and what follows is analyzed just if there is none. -/
theorem andThen {α β : Type} {outcome : Outcome α} {analyze : Context → Outcome β}
    {uses : Context → List Use} (h : a.Tracks p outcome.ctx) (following : β)
    (rest : ∀ ctx : Context, ctx.Tracks (uses ctx) (analyze ctx).ctx)
    (apart : Apart p (uses outcome.ctx)) :
    a.Tracks (p ++ outcome.usesBehind uses) (outcome.andThen following analyze).ctx := by
  obtain ⟨node, ctx, _ | fault⟩ := outcome
  · exact h.append (rest ctx) apart
  · have nothing : p ++ (⟨node, ctx, some fault⟩ : Outcome α).usesBehind uses = p :=
      List.append_nil p
    rw [nothing]
    exact h

end Tracks

end Context

/-! ## Expressions -/

/-- An assignment that comes to its end sets its variable, from then on and for all that follows in
the same list. -/
theorem KnownAt.assign {entry before after : Locals} {past : List Use} {u : Use} {name : String}
    (h : KnownAt entry past [] before) (assigned : before.assign? name = some after)
    (here : u.place = []) (sets : u.sets? = some name) : KnownAt entry (past ++ [u]) [] after where
  declared other := by
    rw [(Locals.grows_of_assign? assigned).status?_eq_none_iff, h.declared]
  set other := by
    have last : SeenFrom [u] [] other ↔ other = name := by
      simp [SeenFrom, here, sets, eq_comm]
    rw [Locals.status?_of_assign?_eq_some assigned, seenFrom_append, last, ← or_assoc, ← h.set]
    by_cases same : other = name <;> simp [same]

/-- A use that sets nothing changes nothing. -/
theorem KnownAt.skip {entry locals : Locals} {past : List Use} {u : Use}
    (h : KnownAt entry past [] locals) (sets : u.sets? = none) :
    KnownAt entry (past ++ [u]) [] locals where
  declared := h.declared
  set other := by
    have last : ¬ SeenFrom [u] [] other := by
      simp [SeenFrom, sets]
    rw [h.set, seenFrom_append, or_iff_left last]

namespace Expr

/-- The analysis of an expression tracks the uses in it. -/
theorem tracks_uses (e : Expr) (ctx : Context) :
    ctx.Tracks (e.uses ctx) (e.analyze ctx).ctx := by
  induction e generalizing ctx with
  | value token content known =>
    cases content with
    | typed ty | untyped => exact .nil rfl rfl
    | failing message => exact .nil rfl (Context.aboutLocals_report token rfl)
  | read token declared known =>
    have explained : Explained ctx.locals [] [⟨[], read token declared known, ctx⟩] :=
      ⟨fun _ => .refl .., trivial⟩
    have known' : KnownAt ctx.locals ([] ++ [⟨[], read token declared known, ctx⟩]) [] ctx.locals :=
      (KnownAt.refl ctx.locals []).skip rfl
    rw [uses]
    rcases analyze_read_cases token declared known ctx with
      ⟨status, step⟩ | ⟨status, step⟩ | ⟨status, step⟩
    · rw [step]
      refine ⟨explained, known', ?_⟩
      rw [Context.aboutLocals_report_of_isAboutLocal token rfl]
      simp [Use.finding?, status]
    · rw [step]
      refine ⟨explained, known', ?_⟩
      rw [Context.aboutLocals_report_of_isAboutLocal token rfl]
      simp [Use.finding?, status]
    · rw [step]
      refine ⟨explained, known', ?_⟩
      simp [Use.finding?, status]
  | assign token source known ih =>
    have before := ih ctx
    have explained : Explained ctx.locals []
        (source.uses ctx ++ [⟨[], assign token source known, ctx⟩]) := by
      refine explained_append.2 ⟨before.explained, fun isRead => ?_, trivial⟩
      cases isRead
    rw [uses]
    rcases analyze_assign_cases token source known ctx with
      ⟨wrong, step⟩ | ⟨ok, undeclared, step⟩ | ⟨locals, ok, assigned, step⟩
    · have sets : (⟨[], assign token source known, ctx⟩ : Use).sets? = none := by
        simp [Use.sets?, Use.checked, step]
      rw [step]
      refine ⟨explained, before.known.skip sets, ?_⟩
      rw [List.filterMap_append, ← List.append_assoc, ← before.found]
      simp [Use.finding?, wrong]
    · have sets : (⟨[], assign token source known, ctx⟩ : Use).sets? = none := by
        simp [Use.sets?, Use.checked, step]
      rw [step]
      refine ⟨explained, before.known.skip sets, ?_⟩
      rw [Context.aboutLocals_report_of_isAboutLocal token rfl, before.found,
        List.filterMap_append, List.append_assoc]
      simp [Use.finding?, ok, undeclared]
    · have sets : (⟨[], assign token source known, ctx⟩ : Use).sets? = some token.value := by
        simp [Use.sets?, Use.checked, step]
      obtain ⟨status, declared, -⟩ := Option.map_eq_some_iff.1 assigned
      rw [step]
      refine ⟨explained, ?_, ?_⟩
      · rw [Context.locals_setLocals]
        exact before.known.assign assigned rfl sets
      · rw [List.filterMap_append, ← List.append_assoc, ← before.found]
        simp [Use.finding?, ok, declared, Context.aboutLocals]
  | index token base key known ihBase ihKey =>
    have first := ihBase ctx
    have both := first.append (ihKey (base.analyze ctx).ctx) ((base.allHere_uses ctx).apart _)
    rw [uses]
    rcases analyze_index_cases token base key known ctx with ⟨wrong, step⟩ | ⟨okBase, -, step⟩ |
      ⟨okBase, -, -, step⟩ | ⟨ty, okBase, -, -, -, step⟩ | ⟨ty, element, okBase, -, -, -, step⟩
    · rw [step, wrong]
      exact first.append (.nil rfl rfl) ((base.allHere_uses ctx).apart _)
    · rw [step, okBase]
      exact both
    · rw [step, okBase]
      exact both
    · rw [step, okBase]
      exact both.congr rfl (Context.aboutLocals_report token rfl)
    · rw [step, okBase]
      exact both

theorem tracks_usesOptional (e : Option Expr) (ctx : Context) :
    ctx.Tracks (usesOptional e ctx) (analyzeOptional e ctx).2 := by
  cases e with
  | none => exact .nil rfl rfl
  | some e => exact e.tracks_uses ctx

theorem tracks_usesWhileOk (es : List Expr) (ctx : Context) :
    ctx.Tracks (usesWhileOk es ctx) (analyzeWhileOk es ctx).2.1 := by
  induction es generalizing ctx with
  | nil => exact .nil rfl rfl
  | cons e es ih =>
    have first := e.tracks_uses ctx
    rw [usesWhileOk, analyzeWhileOk]
    by_cases ok : (e.analyze ctx).ok = true
    · simp only [ok, if_true]
      exact first.append (ih _) ((e.allHere_uses ctx).apart _)
    · simp only [ok]
      exact first.append (.nil rfl rfl) ((e.allHere_uses ctx).apart _)

theorem tracks_usesOfArgs (es : List Expr) (ctx : Context) :
    ctx.Tracks (usesOfArgs es ctx) (analyzeArgs es ctx).2.1 := by
  induction es generalizing ctx with
  | nil => exact .nil rfl rfl
  | cons e es ih =>
    have first := e.tracks_uses ctx
    have alone := first.append (.nil rfl rfl) ((e.allHere_uses ctx).apart [])
    rw [usesOfArgs, analyzeArgs]
    cases ok : (e.analyze ctx).ok with
    | false =>
      simp only [Bool.false_and]
      exact alone
    | true =>
      cases typed : (e.analyze ctx).expr.ty? with
      | none => exact alone
      | some ty => exact first.append (ih _) ((e.allHere_uses ctx).apart _)

end Expr

/-! ## Rules

No rule for a statement says anything about locals. -/

namespace Rule

variable {p : Problem}

theorem isAboutLocal_return? {declared : Ty} {actual : Option Ty}
    (h : p ∈ return? declared actual) : p.isAboutLocal = false := by
  obtain ⟨ty, -, -, rfl⟩ := mem_return?_iff.mp h
  rfl

theorem isAboutLocal_delete? {e : Expr} (h : p ∈ delete? e) : p.isAboutLocal = false := by
  obtain ⟨-, rfl⟩ := mem_delete?_iff.mp h
  rfl

theorem isAboutLocal_switch? {subject : Option Ty} (h : p ∈ switch? subject) :
    p.isAboutLocal = false := by
  obtain ⟨ty, -, -, rfl⟩ := mem_switch?_iff.mp h
  rfl

theorem isAboutLocal_case? {subject actual : Option Ty} (h : p ∈ case? subject actual) :
    p.isAboutLocal = false := by
  obtain ⟨s, a, -, -, -, rfl⟩ := mem_case?_iff.mp h
  rfl

theorem isAboutLocal_assert? {last : Option Ty} (h : p ∈ assert? last) :
    p.isAboutLocal = false := by
  rcases mem_assert?_iff.mp h with ⟨-, rfl⟩ | ⟨-, rfl⟩
  · rfl
  · rfl

theorem isAboutLocal_log? {tys : List (Option Ty)} (h : p ∈ log? tys) :
    p.isAboutLocal = false := by
  obtain ⟨-, rfl⟩ := mem_log?_iff.mp h
  rfl

theorem isAboutLocal_jump? {kind : JumpKind} {owners : List Owner} (h : p ∈ jump? kind owners) :
    p.isAboutLocal = false := by
  obtain ⟨-, rfl⟩ := mem_jump?_iff.mp h
  rfl

theorem isAboutLocal_label? {label : String} {owners : List Owner} (h : p ∈ label? label owners) :
    p.isAboutLocal = false := by
  obtain ⟨-, rfl⟩ := mem_label?_iff.mp h
  rfl

end Rule

theorem QualifiedName.isAboutLocal_of_resolve {name : QualifiedName} {ctx : Context}
    {problem : Problem} (h : name.resolve ctx = .error problem) :
    problem.isAboutLocal = false := by
  rcases resolve_eq_error_iff.mp h with ⟨-, -, rfl⟩ | ⟨-, -, rfl⟩
  · rfl
  · rfl

/-! ## Statements -/

namespace Simple

open Context

/-- An invocation has just the uses in its arguments, and none if its class is not known. -/
theorem tracks_analyzeConstruct (target : QualifiedName) (args : List Expr)
    (resolution : Option Resolution) (ctx : Context) :
    ctx.Tracks ((construct target args resolution).uses ctx)
      (analyzeConstruct target args resolution ctx).2 := by
  have arguments := Expr.tracks_usesOfArgs args ctx
  rw [uses, analyzeConstruct]
  cases resolved : target.resolve ctx with
  | error problem =>
    have other := QualifiedName.isAboutLocal_of_resolve resolved
    exact .nil rfl (aboutLocals_report target.token other)
  | ok cls =>
    cases tys : (Expr.analyzeArgs args ctx).2.2 with
    | none => simpa only [tys] using arguments
    | some tys' =>
      cases found : cls.resolveConstructor tys' with
      | ok found' => simpa only [tys, found] using arguments
      | error error =>
        simp only [tys, found]
        exact arguments.congr rfl (aboutLocals_report target.token rfl)

theorem tracks_analyzeJump (kind : JumpKind) (keyword : Token) (label : Option Token)
    (ctx : Context) : ctx.Tracks [] (analyzeJump kind keyword label ctx) := by
  have unchanged : ctx.Tracks [] ctx := .nil rfl rfl
  unfold analyzeJump
  dsimp only
  split
  next problem misplaced =>
    exact unchanged.reportAny keyword fun p isProblem =>
      Rule.isAboutLocal_jump? (misplaced.trans isProblem)
  next => exact unchanged
  next label _ =>
    have told : ctx.Tracks [] (ctx.tell (.labelResolved label.value
        (Rule.isLabelAround label.value ctx.stack.owners))) := .nil rfl rfl
    exact told.reportAny label fun p => Rule.isAboutLocal_label?

theorem tracks_analyzeWith (e : Expr) (ctx : Context) (keyword : Token)
    {rule : Expr → Option Problem} (other : ∀ e, ∀ p ∈ rule e, p.isAboutLocal = false) :
    ctx.Tracks (e.uses ctx) (analyzeWith e ctx keyword rule).2 := by
  rw [analyzeWith]
  dsimp only
  split
  · exact (e.tracks_uses ctx).reportAny keyword (other _)
  · exact e.tracks_uses ctx

theorem tracks_analyzeAllWith (es : List Expr) (ctx : Context) (keyword : Token)
    {rule : List Expr → Option Problem} (other : ∀ es, ∀ p ∈ rule es, p.isAboutLocal = false) :
    ctx.Tracks (Expr.usesWhileOk es ctx) (analyzeAllWith es ctx keyword rule).2 := by
  rw [analyzeAllWith]
  dsimp only
  split
  · exact (Expr.tracks_usesWhileOk es ctx).reportAny keyword (other _)
  · exact Expr.tracks_usesWhileOk es ctx

theorem tracks_analyzeCase (keyword : Token) (e : Expr) (ctx : Context) :
    ctx.Tracks (e.uses ctx) (analyzeCase keyword e ctx).ctx := by
  rw [analyzeCase]
  split
  · split
    · exact (e.tracks_uses ctx).reportAny keyword fun p => Rule.isAboutLocal_case?
    · exact e.tracks_uses ctx
  · exact e.tracks_uses ctx

/-- The analysis of a simple statement tracks the uses in it. -/
theorem tracks_uses (s : Simple) (ctx : Context) : ctx.Tracks (s.uses ctx) (s.analyze ctx).ctx := by
  cases s with
  | construct target args resolution => exact tracks_analyzeConstruct target args resolution ctx
  | expression e => exact e.tracks_uses ctx
  | ret keyword e => exact tracks_analyzeWith e ctx keyword fun _ _ => Rule.isAboutLocal_return?
  | delete keyword e => exact tracks_analyzeWith e ctx keyword fun _ _ => Rule.isAboutLocal_delete?
  | jump kind keyword label => exact tracks_analyzeJump kind keyword label ctx
  | caseLabel keyword e => exact tracks_analyzeCase keyword e ctx
  | defaultLabel keyword => exact .nil rfl rfl
  | assert keyword exprs =>
    cases exprs with
    | nil => exact .nil rfl rfl
    | cons e es =>
      exact tracks_analyzeAllWith (e :: es) ctx keyword fun _ _ => Rule.isAboutLocal_assert?
  | log keyword exprs =>
    exact tracks_analyzeAllWith exprs ctx keyword fun _ _ => Rule.isAboutLocal_log?

end Simple

theorem Header.tracks_uses (keyword : Token) (header : Header) (ctx : Context) :
    ctx.Tracks (header.uses ctx) (header.analyze keyword ctx).ctx := by
  cases header with
  | doWhile e | forIn _ e | whileLoop e => exact e.tracks_uses ctx
  | forLoop start cond step =>
    have first := (Expr.tracks_usesOptional start ctx).append (Expr.tracks_usesOptional cond _)
      ((Expr.allHere_usesOptional start ctx).apart _)
    have bothHere := (Expr.allHere_usesOptional start ctx).append
      (Expr.allHere_usesOptional cond (Expr.analyzeOptional start ctx).2)
    exact first.append (Expr.tracks_usesOptional step _) (bothHere.apart _)
  | switch e => exact (e.tracks_uses ctx).reportAny keyword fun p => Rule.isAboutLocal_switch?

namespace Stmt

/-- A list in a block of its own tracks its uses, as seen from the list around. -/
theorem tracks_within {body : List Stmt}
    (h : ∀ ctx : Context, ctx.Tracks (usesOfList 0 body ctx) (analyzeList body ctx).ctx)
    (ctx : Context) (owner : Owner) (step : Nat × Slot) :
    ctx.Tracks ((usesOfList 0 body (ctx.enter owner)).map (.inside step))
      (ctx.within owner (analyzeList body)).ctx :=
  (h _).within (analyzeList_extends body _) step

mutual

/-- The analysis of a statement tracks the uses in it. -/
theorem tracks_uses (i : Nat) : (s : Stmt) → (ctx : Context) →
    ctx.Tracks (s.uses i ctx) (s.analyze ctx).ctx
  | simple s, ctx => by
    rw [uses, analyze]
    have alone : ctx.Tracks (s.uses ctx) ((s.analyze ctx).map simple).ctx := s.tracks_uses ctx
    exact alone.passing
  | breakable keyword label header body, ctx => by
    rw [uses, analyze]
    have inside := tracks_within (tracks_usesOfList 0 body) (header.analyze keyword ctx).ctx
      (.breakable (header.analyze keyword ctx).kind label) (i, .body)
    refine Context.Tracks.passing ?_
    exact (header.tracks_uses keyword ctx).append inside ((header.allHere_uses ctx).apart _)
  | ifElse keyword cond onTrue onFalse, ctx => by
    rw [uses, analyze]
    have insideTrue := tracks_within (tracks_usesOfList 0 onTrue) (cond.analyze ctx).ctx .branch
      (i, .onTrue)
    have insideFalse (ctx : Context) := tracks_within (tracks_usesOfList 0 onFalse) ctx .branch
      (i, .onFalse)
    have condHere := cond.allHere_uses ctx
    have behindTrue := (cond.tracks_uses ctx).append insideTrue (condHere.apart _)
    refine Context.Tracks.passing (behindTrue.andThen _ insideFalse ?_)
    -- The condition is seen from both arms, and neither arm from the other.
    exact (condHere.apart _).append
      ((allInside_map _ _).apart (allInside_map _ _) (by simp))
  | guarded keyword body caught handler finalizer, ctx => by
    rw [uses, analyze]
    have insideBody := tracks_within (tracks_usesOfList 0 body) ctx .guarded (i, .body)
    have bodyInside := allInside_map (i, Slot.body) (usesOfList 0 body (ctx.enter .guarded))
    have handlerInside := AllInside.usesBehind (allInside_usesOfPart (i, .handler) handler)
      (ctx.within .guarded (analyzeList body))
    have behindHandler := insideBody.andThen handler (tracks_usesOfPart (i, .handler) handler)
      (bodyInside.apart (allInside_usesOfPart _ _ _) (by simp))
    refine Context.Tracks.passing
      (behindHandler.andThen _ (tracks_usesOfPart (i, .finalizer) finalizer) ?_)
    exact (bodyInside.apart (allInside_usesOfPart _ _ _) (by simp)).append
      (handlerInside.apart (allInside_usesOfPart _ _ _) (by simp))

/-- The analysis of a list tracks the uses in its statements. -/
theorem tracks_usesOfList (i : Nat) : (body : List Stmt) → (ctx : Context) →
    ctx.Tracks (usesOfList i body ctx) (analyzeList body ctx).ctx
  | [], ctx => by
    rw [usesOfList, analyzeList]
    exact .nil rfl rfl
  | s :: rest, ctx => by
    rw [usesOfList, analyzeList, Outcome.ctx_map]
    refine (tracks_uses i s ctx).andThen _ (tracks_usesOfList (i + 1) rest) ?_
    -- The statements behind `s` have other indices.
    refine apart_of_heads (·.1 = i) (fun u mem => head_of_mem_uses mem) ?_
    intro u mem step isHead same
    have later := head_of_mem_usesOfList mem step isHead
    omega

theorem tracks_usesOfPart (step : Nat × Slot) : (part : Option (List Stmt)) → (ctx : Context) →
    ctx.Tracks (usesOfPart step part ctx) (analyzePart part ctx).ctx
  | none, ctx => by
    rw [usesOfPart, analyzePart]
    exact .nil rfl rfl
  | some body, ctx => by
    rw [usesOfPart, analyzePart, Outcome.ctx_map]
    exact tracks_within (tracks_usesOfList 0 body) ctx .guarded step

end

/-- All that is found about locals is found at the uses, in their order. -/
theorem aboutLocals_analyzeList (body : List Stmt) (ctx : Context) :
    (analyzeList body ctx).ctx.aboutLocals
      = ctx.aboutLocals ++ (usesOfList 0 body ctx).filterMap Use.finding? :=
  (tracks_usesOfList 0 body ctx).found

end Stmt

/-! ## Reads -/

namespace Use

/-- Nothing is found wrong with the use. -/
structure Accepted (u : Use) : Prop where
  ok : u.checked.ok = true
  silent : u.checked.ctx = u.ctx

/-- A problem with the given wording is reported at the use, and nothing else. -/
structure Refused (u : Use) (text : String) : Prop where
  wrong : u.checked.ok = false
  reported : ∃ problem : Problem, problem.message = text ∧
    u.finding? = some ⟨problem, u.expr.token⟩ ∧ u.checked.ctx = u.ctx.report problem u.expr.token

/-- What is accepted is not refused. -/
theorem Accepted.not_refused {u : Use} (h : u.Accepted) (text : String) : ¬ u.Refused text := by
  intro refused
  have ok := h.ok
  rw [refused.wrong] at ok
  cases ok

/-- A use is refused in one wording only. -/
theorem Refused.text_unique {u : Use} {text other : String} (h : u.Refused text)
    (h' : u.Refused other) : text = other := by
  obtain ⟨problem, rfl, found, -⟩ := h.reported
  obtain ⟨problem', rfl, found', -⟩ := h'.reported
  rw [found] at found'
  cases found'
  rfl

variable {u : Use} {token : Token} {declared : Ty} {known : Option Ty}

/-- A read of a set variable is accepted. -/
theorem accepted_of_set (isRead : u.expr = .read token declared known)
    (status : u.ctx.locals.status? token.value = some .set) : u.Accepted := by
  constructor
  · rw [checked, isRead, Expr.analyze, status]
  · rw [checked, isRead, Expr.analyze, status]

/-- A read of a declared variable that is not set is refused as not initialized. -/
theorem refused_of_unset (isRead : u.expr = .read token declared known)
    (status : u.ctx.locals.status? token.value = some .unset) :
    u.Refused ("variable is not initialized: " ++ token.value) := by
  constructor
  · rw [checked, isRead, Expr.analyze, status]
  · refine ⟨.uninitialized token.value, rfl, ?_, ?_⟩
    · simp [finding?, isRead, status, Expr.token]
    · rw [checked, isRead, Expr.analyze, status]
      rfl

/-- A read of a variable that is not declared is refused as that. -/
theorem refused_of_undeclared (isRead : u.expr = .read token declared known)
    (status : u.ctx.locals.status? token.value = none) :
    u.Refused ("local variable '" ++ token.value ++ "' is not declared") := by
  constructor
  · rw [checked, isRead, Expr.analyze, status]
  · refine ⟨.undeclared token.value, rfl, ?_, ?_⟩
    · simp [finding?, isRead, status, Expr.token]
    · rw [checked, isRead, Expr.analyze, status]
      rfl

/-- The two complaints about a read are worded differently, whatever the variable. -/
theorem undeclared_ne_uninitialized (name : String) :
    "local variable '" ++ name ++ "' is not declared" ≠ "variable is not initialized: " ++ name := by
  intro same
  have heads := congrArg (fun text => text.toList.head?) same
  simp at heads

/-- A read is accepted just if its variable is set where it is analyzed. -/
theorem accepted_iff (isRead : u.expr = .read token declared known) :
    u.Accepted ↔ u.ctx.locals.status? token.value = some .set := by
  refine ⟨fun accepted => ?_, accepted_of_set isRead⟩
  rcases status : u.ctx.locals.status? token.value with _ | _ | _
  · exact absurd (refused_of_undeclared isRead status) (accepted.not_refused _)
  · exact absurd (refused_of_unset isRead status) (accepted.not_refused _)
  · rfl

/-- Nothing is found at a read just if its variable is set. -/
theorem finding?_eq_none_iff (isRead : u.expr = .read token declared known) :
    u.finding? = none ↔ u.ctx.locals.status? token.value = some .set := by
  rcases status : u.ctx.locals.status? token.value with _ | _ | _ <;>
    simp [finding?, isRead, status]

/-- A read is refused as undeclared just if its variable is not declared where it is analyzed. -/
theorem refused_undeclared_iff (isRead : u.expr = .read token declared known) :
    u.Refused ("local variable '" ++ token.value ++ "' is not declared") ↔
      u.ctx.locals.status? token.value = none := by
  refine ⟨fun refused => ?_, refused_of_undeclared isRead⟩
  rcases status : u.ctx.locals.status? token.value with _ | _ | _
  · rfl
  · have same := refused.text_unique (refused_of_unset isRead status)
    exact absurd same (undeclared_ne_uninitialized _)
  · exact absurd refused ((accepted_of_set isRead status).not_refused _)

/-- A read is refused as not initialized just if its variable is declared there and not set. -/
theorem refused_uninitialized_iff (isRead : u.expr = .read token declared known) :
    u.Refused ("variable is not initialized: " ++ token.value) ↔
      u.ctx.locals.status? token.value = some .unset := by
  refine ⟨fun refused => ?_, refused_of_unset isRead⟩
  rcases status : u.ctx.locals.status? token.value with _ | _ | _
  · have same := (refused_of_undeclared isRead status).text_unique refused
    exact absurd same (undeclared_ne_uninitialized _)
  · rfl
  · exact absurd refused ((accepted_of_set isRead status).not_refused _)

end Use

/-- A declared variable is either set or not. -/
theorem Locals.status?_eq_unset_iff {locals : Locals} {name : String} :
    locals.status? name = some .unset ↔
      locals.status? name ≠ none ∧ locals.status? name ≠ some .set := by
  rcases locals.status? name with _ | _ | _ <;> simp

namespace Stmt

/-- What is known at a read that the analysis of a list comes to. -/
theorem knownAt_of_uses {body : List Stmt} {ctx : Context} {past later : List Use} {u : Use}
    (reached : usesOfList 0 body ctx = past ++ u :: later) {token : Token} {declared : Ty}
    {known : Option Ty} (isRead : u.expr = .read token declared known) :
    KnownAt ctx.locals past u.place u.ctx.locals := by
  have explained := (tracks_usesOfList 0 body ctx).explained
  rw [reached] at explained
  have read : u.isRead = true := by rw [Use.isRead, isRead]
  exact (explained_append.1 explained).2.1 read

/-- **Visibility.**  A read that the analysis of a list comes to is refused as undeclared just if
its variable is not declared at the beginning of the list.  Otherwise it is accepted just if the
variable is set at the beginning, or an assignment to it that the analysis has finished with before
is made by a statement in the list of the read or in a list around it; and if it is not accepted, it
is refused as not initialized.  The places that this is told from are those of the body: the read,
and each use before it, is part of an expression of a statement that stands directly in the list at
its place. -/
theorem read_accepted_iff (body : List Stmt) (ctx : Context) {past later : List Use} {u : Use}
    (reached : usesOfList 0 body ctx = past ++ u :: later) {token : Token} {declared : Ty}
    {known : Option Ty} (isRead : u.expr = .read token declared known) :
    let name := token.value
    let visible := ctx.locals.status? name = some .set ∨ SeenFrom past u.place name
    (u.Refused ("local variable '" ++ name ++ "' is not declared") ↔
      ctx.locals.status? name = none) ∧
    (u.Accepted ↔ ctx.locals.status? name ≠ none ∧ visible) ∧
    (u.Refused ("variable is not initialized: " ++ name) ↔
      ctx.locals.status? name ≠ none ∧ ¬ visible) ∧
    (∀ found ∈ u.finding?, found ∈ (analyzeList body ctx).ctx.diagnostics) ∧
    ∀ v ∈ past ++ [u], v.Owned body := by
  intro name visible
  have known' := knownAt_of_uses reached isRead
  have declaredIff : u.ctx.locals.status? name = none ↔ ctx.locals.status? name = none :=
    known'.declared name
  have setIff : u.ctx.locals.status? name = some .set ↔ visible := known'.set name
  refine ⟨?_, ?_, ?_, ?_, ?_⟩
  · rw [Use.refused_undeclared_iff isRead, declaredIff]
  · rw [Use.accepted_iff isRead, setIff]
    refine ⟨fun isVisible => ⟨?_, isVisible⟩, And.right⟩
    rw [ne_eq, ← declaredIff, setIff.2 isVisible]
    exact Option.some_ne_none _
  · rw [Use.refused_uninitialized_iff isRead, Locals.status?_eq_unset_iff, ne_eq, ne_eq,
      declaredIff, setIff]
  · have isUse : u ∈ usesOfList 0 body ctx := by
      rw [reached]
      exact List.mem_append_right _ List.mem_cons_self
    exact (tracks_usesOfList 0 body ctx).reported isUse
  · intro v isUse
    refine owned_of_mem_usesOfList body ctx v ?_
    rw [reached, ← List.singleton_append, ← List.append_assoc]
    exact List.mem_append_left _ isUse

/-- In `y = 1; if (y) { x = 1; } else { log(x); }` the read of `x` comes behind the assignment in
the other arm, does not see it, and is refused. -/
theorem read_accepted_iff_of_arms :
    let read (name : String) : Expr := .read (.synthetic name) .int none
    let assign (name : String) : Stmt := .simple (.expression
      (.assign (.synthetic name) (.value (.synthetic "1") (.typed .int) none) none))
    let body : List Stmt := [assign "y", .ifElse (.synthetic "if") (read "y") [assign "x"]
      [.simple (.log (.synthetic "log") [read "x"])]]
    let ctx := Context.start default ⟨[("x", .unset), ("y", .unset)]⟩ default
    ∃ past u later, usesOfList 0 body ctx = past ++ u :: later ∧ u.expr = read "x" ∧
      u.place = [(1, .onFalse)] ∧ (∃ v ∈ past, v.sets? = some "x") ∧
      ¬ SeenFrom past u.place "x" ∧ u.Refused "variable is not initialized: x" := by
  intro read assign body ctx
  let all := usesOfList 0 body ctx
  let u : Use := ⟨[(1, .onFalse)], read "x", all[3].ctx⟩
  have reached : all = all.take 3 ++ u :: [] := rfl
  have unseen : ¬ SeenFrom (all.take 3) u.place "x" := by decide +kernel
  have notSet : ctx.locals.status? "x" = some .unset := by decide +kernel
  have refused : u.Refused "variable is not initialized: x" := by
    refine (read_accepted_iff body ctx reached rfl).2.2.1.2 ⟨?_, ?_⟩
    · rw [ne_eq, show ctx.locals.status? (Token.synthetic "x").value = some .unset from notSet]
      exact Option.some_ne_none _
    · rintro (isSet | seen)
      · cases notSet.symm.trans isSet
      · exact unseen seen
  exact ⟨_, u, _, reached, rfl, rfl, by decide +kernel, unseen, refused⟩

end Stmt

end BodyCheck
