import BodyCheck.Analyzer
import BodyCheck.Proofs.Effect
import BodyCheck.Proofs.Execution
import Mathlib.Data.Set.Insert

/-!
# Definite assignment

If the analysis of a body finds nothing wrong, then no run of the body reads a local that has not
been assigned.  This holds of bodies that run in the order in which they are analyzed: without a
switch, without assignments in the condition of a do-while loop or in the step of a for loop, and
without values whose type is not known, behind which the arguments of a constructor are not
analyzed.

## Main definitions

* `Stmt.isPlain` — whether a statement runs in the order in which it is analyzed.
* `Covered` — every read on a path is of a variable that is known or assigned before on the path.
* `Behavior.Safe` — what a part of a body has to keep: from known variables on all its paths are
  covered, and behind it certain variables are assigned.
* `Context.Follows` — an analysis that accounts for a sequence of accesses.

## Main statements

* one rule of `Behavior.Safe` for each combinator of behaviors;
* `Stmt.safe_runs` — statements whose analysis finds nothing wrong are safe;
* `FunctionBody.assigned_before_read` — definite assignment for whole bodies.

## Design notes

The invariant is that the variables whose status is set are assigned on every path that leads to
the point under analysis.  A list starts with the status that its statement has at that point, and
a loop, a branch or a part of a try statement is only ever entered with more assigned than that.
Hence what is known at the beginning of a list is known in every round, and nothing that is
assigned inside it needs to be known behind it.
-/

namespace BodyCheck

/-! ## Bodies that run in the order of their analysis -/

namespace Expr

/-- Whether there is no value of unknown type in an expression. -/
def isSettled : Expr → Bool
  | value _ .untyped _ => false
  | value .. | read .. => true
  | assign _ source _ => source.isSettled
  | index _ base key _ => base.isSettled && key.isSettled

/-- Whether there is an assignment in an expression. -/
def hasAssignment : Expr → Bool
  | value .. | read .. => false
  | assign .. => true
  | index _ base key _ => base.hasAssignment || key.hasAssignment

end Expr

/-- Whether a header runs in the order in which it is analyzed.  The condition of a do-while loop
and the step of a for loop run behind the body, and are analyzed before it. -/
def Header.isPlain (header : Header) : Bool :=
  header.exprs.all Expr.isSettled &&
    match header with
    | .doWhile cond => !cond.hasAssignment
    | .forLoop _ _ (some step) => !step.hasAssignment
    | .switch _ => false
    | _ => true

namespace Stmt

mutual

/-- Whether a statement runs in the order in which it is analyzed, and all its values are of known
type. -/
def isPlain : Stmt → Bool
  | simple s => s.exprs.all Expr.isSettled
  | breakable _ _ header body => header.isPlain && isPlainList body
  | ifElse _ cond onTrue onFalse => cond.isSettled && isPlainList onTrue && isPlainList onFalse
  | guarded _ body _ handler finalizer =>
    isPlainList body && isPlainPart handler && isPlainPart finalizer

/-- Whether all statements of a list are plain. -/
def isPlainList : List Stmt → Bool
  | [] => true
  | s :: rest => s.isPlain && isPlainList rest

/-- Whether a part of a try statement is plain if it is there. -/
def isPlainPart : Option (List Stmt) → Bool
  | none => true
  | some body => isPlainList body

end

end Stmt

/-! ## Covered paths -/

/-- The variables that are set. -/
def Locals.assigned (locals : Locals) : Set String :=
  {name | locals.status? name = some .set}

@[simp] theorem Locals.mem_assigned {locals : Locals} {name : String} :
    name ∈ locals.assigned ↔ locals.status? name = some .set := Iff.rfl

/-- The variables that are assigned somewhere on a path. -/
def assignedOn (path : List Access) : Set String :=
  {name | .assigns name ∈ path}

/-- Every read on a path is of a known variable, or of one assigned before on the path. -/
def Covered (known : Set String) : List Access → Prop
  | [] => True
  | .reads name :: rest => name ∈ known ∧ Covered known rest
  | .assigns name :: rest => Covered (insert name known) rest

@[simp] theorem assignedOn_nil : assignedOn [] = ∅ := by
  simp [assignedOn]

@[simp] theorem assignedOn_append (p q : List Access) :
    assignedOn (p ++ q) = assignedOn p ∪ assignedOn q := by
  ext name
  simp [assignedOn]

@[simp] theorem assignedOn_reads (name : String) (path : List Access) :
    assignedOn (.reads name :: path) = assignedOn path := by
  ext other
  simp [assignedOn]

@[simp] theorem assignedOn_assigns (name : String) (path : List Access) :
    assignedOn (.assigns name :: path) = insert name (assignedOn path) := by
  ext other
  simp [assignedOn]

/-- A path that is covered stays so if more is known before it. -/
theorem Covered.mono {known more : Set String} {path : List Access} (h : Covered known path)
    (sub : known ⊆ more) : Covered more path := by
  induction path generalizing known more with
  | nil => trivial
  | cons access rest ih =>
    cases access with
    | reads name => exact ⟨sub h.1, ih h.2 sub⟩
    | assigns name => exact ih h (Set.insert_subset_insert sub)

/-- Behind the first part of a path, what is assigned on it is known as well. -/
theorem covered_append {known : Set String} {p q : List Access} :
    Covered known (p ++ q) ↔ Covered known p ∧ Covered (known ∪ assignedOn p) q := by
  induction p generalizing known with
  | nil => simp [Covered]
  | cons access rest ih =>
    cases access with
    | reads name => simp [Covered, ih, and_assoc]
    | assigns name => simp [Covered, ih, Set.insert_union, Set.union_insert]

theorem Covered.of_prefix {known : Set String} {p q : List Access} (h : Covered known q)
    (before : p <+: q) : Covered known p := by
  obtain ⟨rest, rfl⟩ := before
  exact (covered_append.1 h).1

/-- A read on a covered path. -/
theorem Covered.read {known : Set String} {before after : List Access} {name : String}
    (h : Covered known (before ++ .reads name :: after)) :
    name ∈ known ∨ .assigns name ∈ before :=
  (covered_append.1 h).2.1

/-! ## Safe behaviors -/

/-- From known variables on, every path is covered, and the variables in `after` are assigned when
control goes on behind the part. -/
structure Behavior.Safe (behavior : Behavior) (before after : Set String) : Prop where
  covered : ∀ {path ending}, behavior path ending → Covered before path
  reaches : ∀ {path}, behavior path .normal → after ⊆ before ∪ assignedOn path

namespace Behavior.Safe

variable {a b : Behavior} {x y z : Set String}

/-- A part stays safe if more is known before it and less is asked of it. -/
theorem mono {x' y' : Set String} (h : a.Safe x y) (before : x ⊆ x') (after : y' ⊆ y) :
    a.Safe x' y' where
  covered run := (h.covered run).mono before
  reaches run := after.trans ((h.reaches run).trans (Set.union_subset_union_left _ before))

/-- What is known before a part is known behind it. -/
theorem forgetting (h : a.Safe x y) : a.Safe x x where
  covered := h.covered
  reaches _ := Set.subset_union_left

/-- A part that accesses nothing is safe from whatever is known, and adds nothing to it. -/
theorem stops (ending : Ending) (x : Set String) : (Behavior.stops ending).Safe x x where
  covered := by
    rintro path ending ⟨rfl, -⟩
    trivial
  reaches _ := Set.subset_union_left

/-- Accesses in a row are safe if each read is of something known or assigned before. -/
theorem straight {accesses : List Access} (covered : Covered x accesses)
    (reaches : y ⊆ x ∪ assignedOn accesses) : (Behavior.straight accesses).Safe x y where
  covered := by
    rintro path ending (⟨rfl, -⟩ | ⟨before, -⟩)
    · exact covered
    · exact covered.of_prefix before
  reaches := by
    rintro path (⟨rfl, -⟩ | ⟨-, abrupt | abrupt⟩)
    · exact reaches
    · cases abrupt
    · cases abrupt

/-- What the first part assigns is known in the second. -/
theorem andThen (first : a.Safe x y) (second : b.Safe y z) : (a.andThen b).Safe x z where
  covered := by
    rintro path ending (⟨p, q, runFirst, runSecond, rfl⟩ | ⟨runFirst, -⟩)
    · exact covered_append.2
        ⟨first.covered runFirst, (second.covered runSecond).mono (first.reaches runFirst)⟩
    · exact first.covered runFirst
  reaches := by
    rintro path (⟨p, q, runFirst, runSecond, rfl⟩ | ⟨-, abrupt⟩)
    · rw [assignedOn_append, ← Set.union_assoc]
      exact (second.reaches runSecond).trans
        (Set.union_subset_union_left _ (first.reaches runFirst))
    · exact absurd rfl abrupt

/-- Of two ways that may be taken, only what both assign is known behind them. -/
theorem either (left : a.Safe x y) (right : b.Safe x y) : (a.either b).Safe x y where
  covered := by
    rintro path ending (run | run)
    · exact left.covered run
    · exact right.covered run
  reaches := by
    rintro path (run | run)
    · exact left.reaches run
    · exact right.reaches run

/-- The rounds of a loop.  The body and the step are entered behind a test, so that what the test
leaves known is known in them, in the first round and in all others. -/
theorem rounds {label : Option Token} {test body step : Behavior} {u v : Set String}
    (safeTest : test.Safe x y) (safeBody : body.Safe y u) (safeStep : step.Safe y v) :
    (Behavior.rounds label test body step).Safe x y := by
  have round : ∀ {p q r}, test p .normal → Covered y q → Covered y r → Covered x (p ++ q ++ r) := by
    intro p q r runTest coveredBody coveredStep
    have known : y ⊆ x ∪ assignedOn p := safeTest.reaches runTest
    refine covered_append.2 ⟨covered_append.2 ⟨safeTest.covered runTest, coveredBody.mono known⟩,
      coveredStep.mono ?_⟩
    rw [assignedOn_append, ← Set.union_assoc]
    exact known.trans Set.subset_union_left
  constructor
  · intro path ending run
    induction run with
    | tested runTest => exact safeTest.covered runTest
    | left runTest runBody _ =>
      exact covered_append.2 ⟨safeTest.covered runTest,
        (safeBody.covered runBody).mono (safeTest.reaches runTest)⟩
    | stuck runTest runBody _ runStep _ =>
      exact round runTest (safeBody.covered runBody) (safeStep.covered runStep)
    | again runTest runBody _ runStep _ ih =>
      exact covered_append.2 ⟨round runTest (safeBody.covered runBody) (safeStep.covered runStep),
        ih.mono Set.subset_union_left⟩
  · intro path run
    -- However the loop is left, it is left behind a test.
    generalize normal : Ending.normal = ending at run
    induction run with
    | tested runTest =>
      subst normal
      exact safeTest.reaches runTest
    | left runTest runBody _ =>
      rw [assignedOn_append, ← Set.union_assoc]
      exact (safeTest.reaches runTest).trans Set.subset_union_left
    | stuck _ _ _ _ abrupt => exact absurd normal.symm abrupt
    | again _ _ _ _ _ ih =>
      rw [assignedOn_append]
      exact (ih normal).trans (Set.union_subset_union_right _ Set.subset_union_right)

/-- A round of a body before anything else of the loop. -/
theorem once {label : Option Token} {body following : Behavior} {u v : Set String}
    (safeBody : body.Safe x u) (safeFollowing : following.Safe x v) :
    (Behavior.once label body following).Safe x x where
  covered := by
    rintro path ending (⟨p, inner, q, runBody, -, run, rfl⟩ | ⟨inner, runBody, -, -⟩)
    · exact covered_append.2
        ⟨safeBody.covered runBody, (safeFollowing.covered run).mono Set.subset_union_left⟩
    · exact safeBody.covered runBody
  reaches _ := Set.subset_union_left

/-- What a handler finds assigned is no less than what was assigned before the body. -/
theorem handledBy {handler : Option Behavior} {y : Set String} (safeBody : a.Safe x y)
    (safeHandler : ∀ b ∈ handler, ∃ z, b.Safe x z) : (a.handledBy handler).Safe x x where
  covered := by
    cases handler with
    | none => exact safeBody.covered
    | some b =>
      obtain ⟨z, safe⟩ := safeHandler b rfl
      rintro path ending (⟨run, -⟩ | ⟨p, q, run, runHandler, rfl⟩)
      · exact safeBody.covered run
      · exact covered_append.2
          ⟨safeBody.covered run, (safe.covered runHandler).mono Set.subset_union_left⟩
  reaches _ := Set.subset_union_left

/-- A finalizer may run after any part of the body, so only what is known before the body is known
in it and behind it. -/
theorem finallyRun {finalizer : Option Behavior} {y : Set String} (safeBody : a.Safe x y)
    (safeFinalizer : ∀ b ∈ finalizer, ∃ z, b.Safe x z) : (a.finallyRun finalizer).Safe x x where
  covered := by
    cases finalizer with
    | none => exact safeBody.covered
    | some b =>
      obtain ⟨z, safe⟩ := safeFinalizer b rfl
      rintro path ending (⟨run, -⟩ | ⟨p, inner, q, last, run, -, runFinalizer, rfl, -⟩)
      · exact safeBody.covered run
      · exact covered_append.2
          ⟨safeBody.covered run, (safe.covered runFinalizer).mono Set.subset_union_left⟩
  reaches _ := Set.subset_union_left

end Behavior.Safe

/-! ## Analyses that find nothing wrong -/

namespace Context

namespace Extends

variable {a b c : Context}

/-- If nothing is found from `a` to `c`, nothing is found on either side of `b`. -/
theorem silent_split (hab : a.Extends b) (hbc : b.Extends c)
    (silent : c.diagnostics = a.diagnostics) :
    b.diagnostics = a.diagnostics ∧ c.diagnostics = b.diagnostics := by
  have back : b.diagnostics <+: a.diagnostics := silent ▸ hbc.diagnostics
  have first : b.diagnostics = a.diagnostics :=
    back.eq_of_length_le hab.diagnostics.length_le
  exact ⟨first, silent.trans first.symm⟩

/-- What has been reported stays. -/
theorem not_silent_report (h : a.Extends b) (problem : Problem) (token : Token) :
    (b.report problem token).diagnostics ≠ a.diagnostics := by
  intro silent
  have longer := congrArg List.length silent
  have := h.diagnostics.length_le
  rw [diagnostics_report, List.length_append, List.length_singleton] at longer
  omega

/-- If nothing has been found when a problem may have been reported, nothing had been found before.
-/
theorem silent_of_reportAny (h : a.Extends b) {problem : Option Problem} {token : Token}
    (silent : (b.reportAny problem token).diagnostics = a.diagnostics) :
    b.diagnostics = a.diagnostics :=
  (h.silent_split ((refl b).reportAny problem token) silent).1

end Extends

/-- The analysis from `before` to `after` accounts for the accesses: what they read is set before
or assigned among them, and whatever is set behind them is set before or assigned by them. -/
structure Follows (before : Context) (accesses : List Access) (after : Context) : Prop where
  covered : Covered before.locals.assigned accesses
  reaches : after.locals.assigned ⊆ before.locals.assigned ∪ assignedOn accesses

namespace Follows

variable {a b c : Context} {p q : List Access}

/-- Nothing is accessed where no local changes. -/
theorem nil (h : b.locals = a.locals) : a.Follows [] b where
  covered := trivial
  reaches := by simp [h]

/-- What is assigned by the first accesses is known to the second. -/
theorem append (hp : a.Follows p b) (hq : b.Follows q c) : a.Follows (p ++ q) c where
  covered := covered_append.2 ⟨hp.covered, hq.covered.mono hp.reaches⟩
  reaches := by
    rw [assignedOn_append, ← Set.union_assoc]
    exact hq.reaches.trans (Set.union_subset_union_left _ hp.reaches)

/-- Only the locals at the end matter. -/
theorem congr (h : a.Follows p b) (same : c.locals = b.locals) : a.Follows p c where
  covered := h.covered
  reaches := same ▸ h.reaches

/-- What the analysis accounts for is safe in every run. -/
theorem safe (h : a.Follows p b) :
    (Behavior.straight p).Safe a.locals.assigned b.locals.assigned :=
  .straight h.covered h.reaches

end Follows

end Context

/-- An assignment adds its variable to those that are assigned, and nothing else. -/
theorem Locals.assigned_of_assign? {locals after : Locals} {name : String}
    (h : locals.assign? name = some after) : after.assigned = insert name locals.assigned := by
  ext other
  rw [Set.mem_insert_iff, mem_assigned, mem_assigned, status?_of_assign?_eq_some h]
  by_cases same : other = name <;> simp [same]

namespace Expr

/-- An expression without a problem has a type if all its values have one, and its analysis
accounts for all that its evaluation does. -/
theorem follows_of_ok (e : Expr) (ctx : Context) (settled : e.isSettled = true)
    (ok : (e.analyze ctx).ok = true) :
    (e.analyze ctx).expr.ty?.isSome = true ∧ ctx.Follows e.accesses (e.analyze ctx).ctx := by
  induction e generalizing ctx with
  | value token content known =>
    cases content with
    | typed ty => exact ⟨rfl, .nil rfl⟩
    | failing message => cases ok
    | untyped => cases settled
  | read token declared known =>
    rcases analyze_read_cases token declared known ctx with ⟨-, step⟩ | ⟨-, step⟩ | ⟨isSet, step⟩
    · rw [step] at ok
      cases ok
    · rw [step] at ok
      cases ok
    · rw [step]
      exact ⟨rfl, ⟨⟨isSet, trivial⟩, Set.subset_union_left⟩⟩
  | assign token source known ih =>
    rcases analyze_assign_cases token source known ctx with
      ⟨-, step⟩ | ⟨-, -, step⟩ | ⟨locals, okSource, assigned, step⟩
    · rw [step] at ok
      cases ok
    · rw [step] at ok
      cases ok
    · rw [step]
      obtain ⟨typed, follows⟩ := ih ctx settled okSource
      refine ⟨typed, follows.append ⟨trivial, ?_⟩⟩
      rw [Context.locals_setLocals, Locals.assigned_of_assign? assigned]
      simp
  | index token base key known ihBase ihKey =>
    obtain ⟨settledBase, settledKey⟩ := Bool.and_eq_true_iff.1 settled
    rcases analyze_index_cases token base key known ctx with ⟨-, step⟩ | ⟨-, -, step⟩ |
      ⟨okBase, -, untyped, step⟩ | ⟨ty, -, -, -, -, step⟩ |
      ⟨ty, element, okBase, okKey, -, -, step⟩
    · rw [step] at ok
      cases ok
    · rw [step] at ok
      cases ok
    · -- The base has a type, as all values in it have one.
      have typed := (ihBase ctx settledBase okBase).1
      rw [untyped] at typed
      cases typed
    · rw [step] at ok
      cases ok
    · rw [step]
      exact ⟨rfl, (ihBase ctx settledBase okBase).2.append (ihKey _ settledKey okKey).2⟩

/-- If nothing is found wrong with a settled expression, its analysis accounts for its accesses. -/
theorem follows_of_silent {e : Expr} {ctx : Context} (settled : e.isSettled = true)
    (silent : (e.analyze ctx).ctx.diagnostics = ctx.diagnostics) :
    ctx.Follows e.accesses (e.analyze ctx).ctx :=
  (e.follows_of_ok ctx settled (ok_of_silent silent)).2

theorem analyzeWhileOk_follows {es : List Expr} {ctx : Context}
    (settled : es.all isSettled = true)
    (silent : (analyzeWhileOk es ctx).2.1.diagnostics = ctx.diagnostics) :
    ctx.Follows (es.flatMap accesses) (analyzeWhileOk es ctx).2.1 := by
  induction es generalizing ctx with
  | nil => exact .nil rfl
  | cons e es ih =>
    obtain ⟨settledFirst, settledRest⟩ := Bool.and_eq_true_iff.1 settled
    rw [analyzeWhileOk] at silent ⊢
    by_cases ok : (e.analyze ctx).ok = true
    · simp only [ok, if_true] at silent ⊢
      have parts := (e.analyze_extends ctx).silent_split (analyzeWhileOk_extends es _) silent
      exact (follows_of_silent settledFirst parts.1).append (ih settledRest parts.2)
    · simp only [ok] at silent
      exact absurd (ok_of_silent silent) ok

/-- If all values have a type, all arguments of a call are analyzed unless one of them is wrong. -/
theorem analyzeArgs_follows {es : List Expr} {ctx : Context} (settled : es.all isSettled = true)
    (silent : (analyzeArgs es ctx).2.1.diagnostics = ctx.diagnostics) :
    ctx.Follows (es.flatMap accesses) (analyzeArgs es ctx).2.1 := by
  induction es generalizing ctx with
  | nil => exact .nil rfl
  | cons e es ih =>
    obtain ⟨settledFirst, settledRest⟩ := Bool.and_eq_true_iff.1 settled
    rw [analyzeArgs] at silent ⊢
    by_cases ok : (e.analyze ctx).ok = true
    · obtain ⟨typed, follows⟩ := e.follows_of_ok ctx settledFirst ok
      obtain ⟨ty, isTy⟩ := Option.isSome_iff_exists.1 typed
      simp only [ok, isTy] at silent ⊢
      have parts := (e.analyze_extends ctx).silent_split (analyzeArgs_extends es _) silent
      exact follows.append (ih settledRest parts.2)
    · rw [Bool.not_eq_true] at ok
      simp only [ok] at silent
      rw [ok_of_silent silent] at ok
      cases ok

/-- An expression without assignments leaves the locals as they are. -/
theorem locals_analyze_of_not_hasAssignment (e : Expr) (ctx : Context)
    (h : e.hasAssignment = false) : (e.analyze ctx).ctx.locals = ctx.locals := by
  induction e generalizing ctx with
  | value token content known => cases content <;> rfl
  | read token declared known =>
    rcases analyze_read_cases token declared known ctx with ⟨-, step⟩ | ⟨-, step⟩ | ⟨-, step⟩
    · rw [step, Context.locals_report]
    · rw [step, Context.locals_report]
    · rw [step]
  | assign token source known ih => cases h
  | index token base key known ihBase ihKey =>
    obtain ⟨noneInBase, noneInKey⟩ := Bool.or_eq_false_iff.1 h
    have both : (key.analyze (base.analyze ctx).ctx).ctx.locals = ctx.locals :=
      (ihKey _ noneInKey).trans (ihBase ctx noneInBase)
    rcases analyze_index_cases token base key known ctx with ⟨-, step⟩ | ⟨-, -, step⟩ |
      ⟨-, -, -, step⟩ | ⟨ty, -, -, -, -, step⟩ | ⟨ty, element, -, -, -, -, step⟩
    · rw [step]
      exact ihBase ctx noneInBase
    · rw [step]
      exact both
    · rw [step]
      exact both
    · rw [step]
      exact both
    · rw [step]
      exact both

/-- An absent expression assigns nothing, nor does one without an assignment. -/
theorem locals_analyzeOptional_of_not_hasAssignment {e : Option Expr} (ctx : Context)
    (h : ∀ x ∈ e, x.hasAssignment = false) :
    (analyzeOptional e ctx).2.locals = ctx.locals := by
  cases e with
  | none => rfl
  | some e => exact e.locals_analyze_of_not_hasAssignment ctx (h e rfl)

/-- Whether it is absent or not, it is safe if nothing is found. -/
theorem safe_runsOptional {e : Option Expr} {ctx : Context}
    (settled : ∀ x ∈ e, x.isSettled = true)
    (silent : (analyzeOptional e ctx).2.diagnostics = ctx.diagnostics) :
    (runsOptional e).Safe ctx.locals.assigned (analyzeOptional e ctx).2.locals.assigned := by
  cases e with
  | none => exact .stops ..
  | some e => exact (follows_of_silent (settled e rfl) silent).safe

end Expr

/-! ## Statements -/

/-- An analysis that came to its end without finding anything. -/
def Outcome.Clean {α : Type} (outcome : Outcome α) (ctx : Context) : Prop :=
  outcome.fault = none ∧ outcome.ctx.diagnostics = ctx.diagnostics

namespace Outcome.Clean

variable {α β : Type} {ctx : Context}

/-- If a statement has no fault to pass on, its analysis was clean. -/
theorem of_passing {outcome : Outcome Stmt} (h : outcome.passing.Clean ctx) :
    outcome.Clean ctx := by
  obtain ⟨node, after, _ | fault⟩ := outcome
  · exact h
  · cases h.1

/-- A sequence is clean just if both of its parts are. -/
theorem of_andThen {outcome : Outcome α} {following : β} {analyze : Context → Outcome β}
    (h : (outcome.andThen following analyze).Clean ctx) (extension : ctx.Extends outcome.ctx)
    (rest : ∀ ctx : Context, ctx.Extends (analyze ctx).ctx) :
    outcome.Clean ctx ∧ (analyze outcome.ctx).Clean outcome.ctx := by
  obtain ⟨node, after, _ | fault⟩ := outcome
  · have parts := extension.silent_split (rest after) h.2
    exact ⟨⟨rfl, parts.1⟩, h.1, parts.2⟩
  · cases h.1

/-- Behind a first part without a fault, the context is that of the second. -/
theorem ctx_andThen {outcome : Outcome α} (h : outcome.Clean ctx) (following : β)
    (analyze : Context → Outcome β) :
    (outcome.andThen following analyze).ctx = (analyze outcome.ctx).ctx := by
  rw [andThen, h.1]
  rfl

end Outcome.Clean

namespace Simple

/-- If nothing is found wrong with a statement, nothing is with its expression. -/
theorem analyzeWith_follows {e : Expr} {ctx : Context} {keyword : Token}
    {rule : Expr → Option Problem} (settled : e.isSettled = true)
    (silent : (analyzeWith e ctx keyword rule).2.diagnostics = ctx.diagnostics) :
    ctx.Follows e.accesses (analyzeWith e ctx keyword rule).2 := by
  rw [analyzeWith] at silent ⊢
  by_cases ok : (e.analyze ctx).ok = true
  · simp only [ok, if_true] at silent ⊢
    exact (e.follows_of_ok ctx settled ok).2.congr (Context.locals_reportAny ..)
  · simp only [ok] at silent
    exact absurd (Expr.ok_of_silent silent) ok

theorem analyzeAllWith_follows {es : List Expr} {ctx : Context} {keyword : Token}
    {rule : List Expr → Option Problem} (settled : es.all Expr.isSettled = true)
    (silent : (analyzeAllWith es ctx keyword rule).2.diagnostics = ctx.diagnostics) :
    ctx.Follows (es.flatMap Expr.accesses) (analyzeAllWith es ctx keyword rule).2 := by
  rw [analyzeAllWith] at silent ⊢
  dsimp only at silent ⊢
  split at silent
  next ok =>
    have followed := Expr.analyzeWhileOk_follows settled
      ((Expr.analyzeWhileOk_extends es ctx).silent_of_reportAny silent)
    simp only [ok, if_true]
    exact followed.congr (Context.locals_reportAny ..)
  next wrong =>
    simp only [wrong]
    exact Expr.analyzeWhileOk_follows settled silent

theorem analyzeConstruct_follows {target : QualifiedName} {args : List Expr}
    {resolution : Option Resolution} {ctx : Context} (settled : args.all Expr.isSettled = true)
    (silent : (analyzeConstruct target args resolution ctx).2.diagnostics = ctx.diagnostics) :
    ctx.Follows (args.flatMap Expr.accesses) (analyzeConstruct target args resolution ctx).2 := by
  have arguments := Expr.analyzeArgs_extends args ctx
  rw [analyzeConstruct] at silent ⊢
  cases resolved : target.resolve ctx with
  | error problem =>
    rw [resolved] at silent
    exact absurd silent ((Context.Extends.refl ctx).not_silent_report problem _)
  | ok cls =>
    simp only [resolved] at silent ⊢
    cases tys : (Expr.analyzeArgs args ctx).2.2 with
    | none =>
      simp only [tys] at silent
      exact Expr.analyzeArgs_follows settled silent
    | some tys' =>
      simp only [tys] at silent
      cases found : cls.resolveConstructor tys' with
      | ok _ =>
        simp only [found] at silent ⊢
        exact Expr.analyzeArgs_follows settled silent
      | error error =>
        simp only [found] at silent
        exact absurd silent (arguments.not_silent_report (.overload error) _)

/-- A jump accesses no local. -/
theorem analyzeJump_follows (kind : JumpKind) (keyword : Token) (label : Option Token)
    (ctx : Context) : ctx.Follows [] (analyzeJump kind keyword label ctx) := by
  refine .nil ?_
  unfold analyzeJump
  dsimp only
  split
  · rfl
  · rfl
  · exact Context.locals_reportAny ..

/-- A simple statement outside of a switch is safe if its analysis finds nothing wrong. -/
theorem safe_runs {s : Simple} {ctx : Context} (settled : s.exprs.all Expr.isSettled = true)
    (outside : ctx.stack.top.owner.subject? = none) (clean : (s.analyze ctx).Clean ctx) :
    s.runs.Safe ctx.locals.assigned (s.analyze ctx).ctx.locals.assigned := by
  cases s with
  | construct target args resolution => exact (analyzeConstruct_follows settled clean.2).safe
  | expression e =>
    exact (Expr.follows_of_silent (Bool.and_eq_true_iff.1 settled).1 clean.2).safe
  | ret keyword e =>
    have silent := clean.2
    rw [analyze, Outcome.ctx_done] at silent ⊢
    exact (analyzeWith_follows (Bool.and_eq_true_iff.1 settled).1 silent).safe.andThen (.stops ..)
  | delete keyword e =>
    have silent := clean.2
    rw [analyze, Outcome.ctx_done] at silent ⊢
    exact (analyzeWith_follows (Bool.and_eq_true_iff.1 settled).1 silent).safe
  | jump kind keyword label =>
    have follows := analyzeJump_follows kind keyword label ctx
    refine (Behavior.Safe.stops _ _).mono subset_rfl ?_
    rw [analyze, Outcome.ctx_done]
    simpa using follows.reaches
  | caseLabel keyword e =>
    -- A case outside of a switch is at fault unless its expression is wrong.
    obtain ⟨noFault, silent⟩ := clean
    rw [analyze, analyzeCase] at noFault silent
    have outside' : (e.analyze ctx).ctx.stack.top.owner.subject? = none := by
      rw [(e.analyze_extends ctx).owner_top, outside]
    by_cases ok : (e.analyze ctx).ok = true
    · simp [ok, outside'] at noFault
    · simp only [ok] at silent
      exact absurd (Expr.ok_of_silent silent) ok
  | defaultLabel keyword => exact .stops ..
  | assert keyword exprs =>
    cases exprs with
    | nil => cases clean.1
    | cons e es =>
      have silent := clean.2
      rw [analyze, Outcome.ctx_done] at silent ⊢
      exact (analyzeAllWith_follows settled silent).safe
  | log keyword exprs =>
    have silent := clean.2
    rw [analyze, Outcome.ctx_done] at silent ⊢
    exact (analyzeAllWith_follows settled silent).safe

end Simple

namespace Header

/-- A plain header opens no block whose cases are held against a subject. -/
theorem subject?_of_isPlain {header : Header} (plain : header.isPlain = true) (keyword : Token)
    (label : Option Token) (ctx : Context) :
    (Owner.breakable (header.analyze keyword ctx).kind label).subject? = none := by
  cases header with
  | switch subject => simp [isPlain] at plain
  | _ => rfl

/-- A loop is safe if its header finds nothing wrong and its body is safe from what is known
behind the header. -/
theorem safe_runs {header : Header} {keyword : Token} {ctx : Context}
    (plain : header.isPlain = true)
    (silent : (header.analyze keyword ctx).ctx.diagnostics = ctx.diagnostics)
    (label : Option Token) {body : Behavior} (sections : Behavior) {u : Set String}
    (safeBody : body.Safe (header.analyze keyword ctx).ctx.locals.assigned u) :
    (header.runs label body sections).Safe ctx.locals.assigned
      (header.analyze keyword ctx).ctx.locals.assigned := by
  obtain ⟨settled, inOrder⟩ := Bool.and_eq_true_iff.1 plain
  cases header with
  | doWhile cond =>
    -- The body runs before the condition does, but without assignments there the two orders of
    -- things cannot be told apart.
    have same : (cond.analyze ctx).ctx.locals = ctx.locals :=
      cond.locals_analyze_of_not_hasAssignment ctx (by simpa using inOrder)
    have test := (Expr.follows_of_silent (Bool.and_eq_true_iff.1 settled).1 silent).safe
    have safeBody' : body.Safe ctx.locals.assigned u := same ▸ safeBody
    have unchanged : ctx.locals.assigned = (cond.analyze ctx).ctx.locals.assigned := by rw [same]
    exact (Behavior.Safe.once safeBody' (.rounds test safeBody (.stops .normal _))).mono subset_rfl
      unchanged.symm.subset
  | forIn loopVariable operand =>
    exact (Expr.follows_of_silent (Bool.and_eq_true_iff.1 settled).1 silent).safe.andThen
      (.rounds (.stops .normal _) safeBody (.stops .normal _))
  | forLoop start cond step =>
    obtain ⟨settledStart, settledCond, settledStep⟩ :
        (∀ e ∈ start, e.isSettled = true) ∧ (∀ e ∈ cond, e.isSettled = true) ∧
          ∀ e ∈ step, e.isSettled = true := by
      simpa [exprs] using settled
    have startExtends := Expr.analyzeOptional_extends start ctx
    have condExtends := Expr.analyzeOptional_extends cond (Expr.analyzeOptional start ctx).2
    have stepExtends := Expr.analyzeOptional_extends step
      (Expr.analyzeOptional cond (Expr.analyzeOptional start ctx).2).2
    obtain ⟨silentStart, silentRest⟩ :=
      startExtends.silent_split (condExtends.trans stepExtends) silent
    obtain ⟨silentCond, silentStep⟩ := condExtends.silent_split stepExtends silentRest
    -- The step runs behind the body and leaves the locals alone, so that what is known behind the
    -- condition is known in the body.
    have pureStep : ∀ e ∈ step, e.hasAssignment = false := by
      rintro e ⟨⟩
      simpa using inOrder
    have same := Expr.locals_analyzeOptional_of_not_hasAssignment
      (Expr.analyzeOptional cond (Expr.analyzeOptional start ctx).2).2 pureStep
    have assignedSame := congrArg Locals.assigned same
    have safeBody' : body.Safe _ u := safeBody.mono assignedSame.subset subset_rfl
    exact (Expr.safe_runsOptional settledStart silentStart).andThen
      ((Behavior.Safe.rounds (Expr.safe_runsOptional settledCond silentCond) safeBody'
        (Expr.safe_runsOptional settledStep silentStep)).mono subset_rfl assignedSame.subset)
  | whileLoop cond =>
    exact .rounds (Expr.follows_of_silent (Bool.and_eq_true_iff.1 settled).1 silent).safe safeBody
      (.stops .normal _)
  | switch subject => cases inOrder

end Header

namespace Stmt

mutual

/-- Plain statements outside of a switch are safe if their analysis finds nothing wrong. -/
theorem safe_runs : (s : Stmt) → (ctx : Context) → s.isPlain = true →
    ctx.stack.top.owner.subject? = none → (s.analyze ctx).Clean ctx →
    s.runs.Safe ctx.locals.assigned (s.analyze ctx).ctx.locals.assigned
  | simple s, ctx, plain, outside, clean => by
    rw [isPlain] at plain
    rw [analyze] at clean ⊢
    have clean' : (s.analyze ctx).Clean ctx := clean.of_passing
    have same : ((s.analyze ctx).map simple).passing.ctx.locals = (s.analyze ctx).ctx.locals :=
      congrArg BlockStack.locals (Outcome.stack_passing _)
    rw [runs, same]
    exact Simple.safe_runs plain outside clean'
  | breakable keyword label header body, ctx, plain, outside, clean => by
    rw [isPlain, Bool.and_eq_true] at plain
    rw [locals_analyze_of_controls? rfl, ← header.locals_analyze keyword, runs]
    rw [analyze] at clean
    have extension := header.analyze_extends keyword ctx
    have parts := extension.silent_split (Context.Extends.within (analyzeList_extends body _))
      clean.of_passing.2
    have inside := Header.subject?_of_isPlain plain.1 keyword label ctx
    have safeBody := safe_runsOfList body
      ((header.analyze keyword ctx).ctx.enter (.breakable (header.analyze keyword ctx).kind label))
      plain.2 inside ⟨clean.of_passing.1, parts.2⟩
    exact Header.safe_runs plain.1 parts.1 label _ safeBody
  | ifElse keyword cond onTrue onFalse, ctx, plain, outside, clean => by
    rw [isPlain, Bool.and_eq_true, Bool.and_eq_true] at plain
    rw [locals_analyze_of_controls? rfl, runs]
    rw [analyze] at clean
    obtain ⟨noFault, silent⟩ := clean.of_passing
    have armExtends (arm : List Stmt) (ctx : Context) :
        ctx.Extends (ctx.within .branch (analyzeList arm)).ctx :=
      .within (analyzeList_extends arm _)
    have onTrueExtends := armExtends onTrue (cond.analyze ctx).ctx
    obtain ⟨silentCond, silentArms⟩ := (cond.analyze_extends ctx).silent_split
      (.andThen onTrueExtends (armExtends onFalse)) silent
    obtain ⟨cleanTrue, cleanFalse⟩ :=
      Outcome.Clean.of_andThen ⟨noFault, silentArms⟩ onTrueExtends (armExtends onFalse)
    -- The second arm finds the locals as the condition has left them: the first arm has had a
    -- block of its own.
    have same : ((cond.analyze ctx).ctx.within .branch (analyzeList onTrue)).ctx.locals =
        (cond.analyze ctx).ctx.locals :=
      congrArg BlockStack.locals (stack_within_analyzeList onTrue _ _)
    have safeTrue := safe_runsOfList onTrue ((cond.analyze ctx).ctx.enter .branch) plain.1.2 rfl
      cleanTrue
    have safeFalse := safe_runsOfList onFalse
      (((cond.analyze ctx).ctx.within .branch (analyzeList onTrue)).ctx.enter .branch) plain.2 rfl
      cleanFalse
    rw [Context.locals_enter] at safeTrue safeFalse
    rw [same] at safeFalse
    exact (Expr.follows_of_silent plain.1.1 silentCond).safe.andThen
      (.either safeTrue.forgetting safeFalse.forgetting)
  | guarded keyword body caught handler finalizer, ctx, plain, outside, clean => by
    rw [isPlain, Bool.and_eq_true, Bool.and_eq_true] at plain
    rw [locals_analyze_of_controls? rfl, runs]
    rw [analyze] at clean
    have bodyExtends : ctx.Extends (ctx.within .guarded (analyzeList body)).ctx :=
      .within (analyzeList_extends body _)
    obtain ⟨cleanParts, cleanFinalizer⟩ := Outcome.Clean.of_andThen clean.of_passing
      (.andThen bodyExtends (analyzePart_extends handler)) (analyzePart_extends finalizer)
    obtain ⟨cleanBody, cleanHandler⟩ :=
      Outcome.Clean.of_andThen cleanParts bodyExtends (analyzePart_extends handler)
    -- All parts begin with what is known before the statement.
    have sameHandler : (ctx.within .guarded (analyzeList body)).ctx.locals = ctx.locals :=
      congrArg BlockStack.locals (stack_within_analyzeList body _ _)
    have sameFinalizer : ((ctx.within .guarded (analyzeList body)).andThen handler
        (analyzePart handler)).ctx.locals = ctx.locals := by
      rw [cleanBody.ctx_andThen, Context.locals, stack_analyzePart]
      exact sameHandler
    have safeBody := safe_runsOfList body (ctx.enter .guarded) plain.1.1 rfl cleanBody
    have safeHandler := safe_runsOfPart handler _ plain.1.2 cleanHandler
    have safeFinalizer := safe_runsOfPart finalizer _ plain.2 cleanFinalizer
    rw [sameHandler] at safeHandler
    rw [sameFinalizer] at safeFinalizer
    exact (safeBody.handledBy safeHandler).finallyRun safeFinalizer

/-- Plain lists outside of a switch are safe if their analysis finds nothing wrong. -/
theorem safe_runsOfList : (body : List Stmt) → (ctx : Context) → isPlainList body = true →
    ctx.stack.top.owner.subject? = none → (analyzeList body ctx).Clean ctx →
    (runsOfList body).Safe ctx.locals.assigned (analyzeList body ctx).ctx.locals.assigned
  | [], ctx, _, _, _ => by
    rw [runsOfList, analyzeList]
    exact .stops ..
  | s :: rest, ctx, plain, outside, clean => by
    rw [isPlainList, Bool.and_eq_true] at plain
    rw [analyzeList] at clean ⊢
    have parts := Outcome.Clean.of_andThen clean (s.analyze_extends ctx) (analyzeList_extends rest)
    rw [Outcome.ctx_map, parts.1.ctx_andThen, runsOfList]
    refine (safe_runs s ctx plain.1 outside parts.1).andThen
      (safe_runsOfList rest _ plain.2 ?_ parts.2)
    rw [(s.analyze_extends ctx).owner_top, outside]

/-- A part of a try statement is safe if its analysis is clean, whatever is known behind it. -/
theorem safe_runsOfPart : (part : Option (List Stmt)) → (ctx : Context) →
    isPlainPart part = true → (analyzePart part ctx).Clean ctx →
    ∀ b ∈ runsOfPart part, ∃ after, b.Safe ctx.locals.assigned after
  | none, ctx, _, _ => by
    rw [runsOfPart]
    intro b h
    cases h
  | some body, ctx, plain, clean => by
    rw [isPlainPart] at plain
    rw [analyzePart] at clean
    rw [runsOfPart]
    rintro b ⟨⟩
    exact ⟨_, safe_runsOfList body (ctx.enter .guarded) plain rfl clean⟩

end

end Stmt

namespace FunctionBody

/-- **Definite assignment.**  If the analysis of a plain body comes to its end without finding
anything, then whatever local a run of the body reads at some point was set at the entry or has
been assigned on the way to that point. -/
theorem assigned_before_read (body : FunctionBody) (classes : Registry)
    (plain : Stmt.isPlainList body.statements = true)
    (noFault : (body.analyze classes).fault = none)
    (silent : (body.analyze classes).ctx.diagnostics = [])
    {path : List Access} {ending : Ending} (run : Stmt.runsOfList body.statements path ending)
    {before after : List Access} {name : String} (split : path = before ++ .reads name :: after) :
    body.locals.status? name = some .set ∨ .assigns name ∈ before := by
  have safe := Stmt.safe_runsOfList body.statements
    (.start body.function body.locals classes) plain rfl ⟨noFault, silent⟩
  subst split
  exact (safe.covered run).read

/-- In `x = 1; while (x) { y = x; continue; }` the second test of the loop finds `x` assigned, and
so does the read in the body. -/
theorem assigned_before_read_of_loop :
    let read (name : String) : Expr := .read (.synthetic name) .int none
    let assign (name : String) (source : Expr) : Expr := .assign (.synthetic name) source none
    let one : Expr := .value (.synthetic "1") (.typed .int) none
    let loop : Stmt := .breakable (.synthetic "while") none (.whileLoop (read "x"))
      [.simple (.expression (assign "y" (read "x"))),
        .simple (.jump .continues (.synthetic "continue") none)]
    let body : FunctionBody := ⟨default, ⟨[("x", .unset), ("y", .unset)]⟩,
      [.simple (.expression (assign "x" one)), loop]⟩
    let path : List Access :=
      [.assigns "x", .reads "x", .reads "x", .assigns "y", .reads "x"]
    (Stmt.isPlainList body.statements = true ∧ (body.analyze default).fault = none ∧
      (body.analyze default).ctx.diagnostics = []) ∧
    Stmt.runsOfList body.statements path .normal ∧
    (body.locals.status? "x" = some .set ∨
      .assigns "x" ∈ [Access.assigns "x", .reads "x", .reads "x", .assigns "y"]) := by
  intro read assign one loop body path
  have plain : Stmt.isPlainList body.statements = true := by decide +kernel
  have noFault : (body.analyze default).fault = none := by decide +kernel
  have silent : (body.analyze default).ctx.diagnostics = [] := by decide +kernel
  have bodyRun : Stmt.runsOfList [.simple (.expression (assign "y" (read "x"))),
      .simple (.jump .continues (.synthetic "continue") none)]
      [.reads "x", .assigns "y"] (.jumped .continues none) :=
    .inl ⟨_, _, .inl ⟨rfl, rfl⟩, .inr ⟨⟨rfl, .inl rfl⟩, nofun⟩, rfl⟩
  have test : Behavior.straight [.reads "x"] [.reads "x"] .normal := .inl ⟨rfl, rfl⟩
  have step : Behavior.stops .normal [] .normal := ⟨rfl, .inl rfl⟩
  have goesOn : (Ending.jumped .continues none).goesOn none = true := rfl
  have loopRun : loop.runs [.reads "x", .reads "x", .assigns "y", .reads "x"] .normal :=
    Behavior.rounds.again test bodyRun goesOn step (.tested test)
  have run : Stmt.runsOfList body.statements path .normal :=
    .inl ⟨_, _, .inl ⟨rfl, rfl⟩, .inl ⟨_, _, loopRun, ⟨rfl, .inl rfl⟩, rfl⟩, rfl⟩
  refine ⟨⟨plain, noFault, silent⟩, run, ?_⟩
  exact assigned_before_read body default plain noFault silent run
    rfl

end FunctionBody

end BodyCheck
