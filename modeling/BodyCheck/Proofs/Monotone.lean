import BodyCheck.Proofs.DefiniteAssignment
import BodyCheck.Proofs.Jumps
import BodyCheck.Proofs.Faults

/-!
# Knowing more

An analysis that starts with more variables known to be set ends with more of them known to be set.
It finds nothing wrong if nothing was wrong with less known, and it has a fault if there was one
with less known.

## Main definitions

* `Context.Below` — the second context is the first with more variables set in the innermost list.
* `Context.Improves` — more variables are set behind the second analysis than behind the first, and
  it finds nothing if the first finds nothing.
* `Expr.Checked.Improves` — what is right in the first analysis of an expression is right in the
  second, and the same comes of it.
* `Outcome.Improves` — the second analysis of statements reaches no further than the first, and is
  clean if the first is.

## Main statements

* `Expr.analyze_improves`, `Header.analyze_improves`, `Simple.analyze_improves` — what more knowledge
  does to expressions, headers and simple statements.
* `Stmt.analyzeList_improves` — what it does to a list.
* `Stmt.analysis_monotone` — monotonicity in what is known to be assigned.

## Design notes

Two runs over the same list come to differ in more than the locals: where the subject of a switch is
wrong in the first run, its type may be known in the second.  This is why contexts are compared by
their owners as written.  It does no harm to the locals or to the faults, but the cases of such a
switch are checked in the second run only.  Hence that a clean run stays clean needs the very same
owners, and `Outcome.Improves` carries a proposition for this.
-/

namespace BodyCheck

/-! ## Locals and stacks -/

namespace Locals

/-- Locals grow if the same names are declared and all that were set are set. -/
theorem grows_iff {a b : Locals} :
    a.Grows b ↔ (∀ name, b.status? name = none ↔ a.status? name = none) ∧
      ∀ name, a.status? name = some .set → b.status? name = some .set := by
  constructor
  · intro h
    refine ⟨h.status?_eq_none_iff, fun name isSet => ?_⟩
    rcases h name with same | ⟨wasUnset, -⟩
    · rw [same, isSet]
    · rw [isSet] at wasUnset
      cases wasUnset
  · rintro ⟨declared, assigned⟩ name
    cases before : a.status? name with
    | none => exact .inl ((declared name).mpr before)
    | some status =>
      cases status with
      | set => exact .inl (assigned name before)
      | unset =>
        cases after : b.status? name with
        | none =>
          rw [(declared name).mp after] at before
          cases before
        | some status =>
          cases status with
          | set => exact .inr ⟨rfl, rfl⟩
          | unset => exact .inl rfl

namespace Grows

variable {a b a' b' : Locals}

/-- What is set on the left is set on the right. -/
theorem set (h : a.Grows b) {name : String} (isSet : a.status? name = some .set) :
    b.status? name = some .set :=
  (grows_iff.mp h).2 name isSet

/-- The same assignment on both sides. -/
theorem assign (h : a.Grows b) {name : String} (less : a.assign? name = some a')
    (more : b.assign? name = some b') : a'.Grows b' := by
  intro other
  rw [status?_of_assign?_eq_some less, status?_of_assign?_eq_some more]
  by_cases same : other = name
  · rw [if_pos same, if_pos same]
    exact .inl rfl
  · rw [if_neg same, if_neg same]
    exact h other

end Grows

end Locals

/-! ## Contexts -/

namespace Context

/-- The second context is the first one with more variables set in the innermost list.  Nothing is
said about the other lists but what they belong to, as far as it is written, and nothing about what
has been found and told. -/
structure Below (less more : Context) : Prop where
  function : more.function = less.function
  classes : more.classes = less.classes
  owners : more.stack.owners.map Owner.asWritten = less.stack.owners.map Owner.asWritten
  locals : less.locals.Grows more.locals

namespace Below

variable {a b c : Context}

theorem report_left (h : a.Below b) (problem : Problem) (token : Token) :
    (a.report problem token).Below b :=
  { h with }

theorem report_right (h : a.Below b) (problem : Problem) (token : Token) :
    a.Below (b.report problem token) :=
  { h with }

theorem reportAny_left (h : a.Below b) (problem : Option Problem) (token : Token) :
    (a.reportAny problem token).Below b := by
  cases problem with
  | none => exact h
  | some problem => exact h.report_left problem token

/-- Going on on the right only adds to what is known there. -/
theorem extends_right (h : a.Below b) (behind : b.Extends c) : a.Below c where
  function := behind.function.trans h.function
  classes := behind.classes.trans h.classes
  owners := by rw [behind.owners, h.owners]
  locals := h.locals.trans behind.locals

/-- The locals may change on both sides as long as those on the right are more. -/
theorem setLocals (h : a.Below b) {less more : Locals} (grows : less.Grows more) :
    (a.setLocals less).Below (b.setLocals more) where
  function := h.function
  classes := h.classes
  owners := by
    show (b.stack.setLocals more).owners.map _ = (a.stack.setLocals less).owners.map _
    rw [BlockStack.owners_setLocals, BlockStack.owners_setLocals, h.owners]
  locals := by
    rw [locals_setLocals, locals_setLocals]
    exact grows

/-- Two blocks are entered whose owners are written in the same way. -/
theorem enter (h : a.Below b) {owner owner' : Owner}
    (written : owner'.asWritten = owner.asWritten) : (a.enter owner).Below (b.enter owner') where
  function := h.function
  classes := h.classes
  owners := by
    show owner'.asWritten :: b.stack.owners.map _ = owner.asWritten :: a.stack.owners.map _
    rw [written, h.owners]
  locals := h.locals

/-- Behind two blocks only what was there before them matters. -/
theorem restored {a' b' : Context} (h : a.Below b) (less : a.Extends a') (more : b.Extends b')
    (sameLess : a'.stack = a.stack) (sameMore : b'.stack = b.stack) : a'.Below b' where
  function := by rw [less.function, more.function, h.function]
  classes := by rw [less.classes, more.classes, h.classes]
  owners := by rw [sameLess, sameMore, h.owners]
  locals := by
    show a'.stack.locals.Grows b'.stack.locals
    rw [sameLess, sameMore]
    exact h.locals

/-- A case sees the same kind of list around it. -/
theorem isSwitch_top (h : a.Below b) :
    b.stack.top.owner.isSwitch = a.stack.top.owner.isSwitch := by
  rw [BlockStack.owner_top, BlockStack.owner_top, ← Owner.isSwitch_headD_map_asWritten, h.owners,
    Owner.isSwitch_headD_map_asWritten]

/-- A jump sees the same lists around it. -/
theorem enclosures (h : a.Below b) :
    b.stack.owners.map Owner.enclosure = a.stack.owners.map Owner.enclosure := by
  rw [← Owner.map_enclosure_asWritten, h.owners, Owner.map_enclosure_asWritten]

end Below

/-- Nothing is found if nothing is found on the way and there is no problem to report. -/
theorem Extends.silent_reportAny_iff {a b : Context} (h : a.Extends b) {problem : Option Problem}
    {token : Token} : (b.reportAny problem token).diagnostics = a.diagnostics ↔
      b.diagnostics = a.diagnostics ∧ problem = none := by
  cases problem with
  | none => exact (and_iff_left rfl).symm
  | some problem =>
    constructor
    · intro silent
      exact absurd silent (h.not_silent_report problem token)
    · rintro ⟨-, ⟨⟩⟩

/-- The analyses that lead from `a` to `less` and from `b` to `more` compare as they should: behind
the second one more variables are set, and nothing is found in it if nothing is found in the
first. -/
structure Improves (a b less more : Context) : Prop where
  left : a.Extends less
  right : b.Extends more
  below : less.Below more
  silent : less.diagnostics = a.diagnostics → more.diagnostics = b.diagnostics

namespace Improves

variable {a b a' b' a'' b'' : Context}

/-- Where nothing is done on either side, nothing gets worse. -/
theorem refl (h : a.Below b) : Improves a b a b where
  left := .refl a
  right := .refl b
  below := h
  silent _ := rfl

/-- Analyses that compare as they should may follow one another. -/
theorem trans (h : Improves a b a' b') (h' : Improves a' b' a'' b'') : Improves a b a'' b'' where
  left := h.left.trans h'.left
  right := h.right.trans h'.right
  below := h'.below
  silent nothing := by
    obtain ⟨first, second⟩ := h.left.silent_split h'.left nothing
    rw [h'.silent second, h.silent first]

/-- Lists that belong to the same on both sides still do. -/
theorem owners (h : Improves a b a' b') (alike : b.stack.owners = a.stack.owners) :
    b'.stack.owners = a'.stack.owners := by
  rw [h.right.owners, h.left.owners, alike]

/-- If something is found on the left, anything may be found on the right. -/
theorem of_found (left : a.Extends a') (right : b.Extends b') (below : a'.Below b')
    (found : a'.diagnostics ≠ a.diagnostics) : Improves a b a' b' where
  left := left
  right := right
  below := below
  silent nothing := absurd nothing found

/-- If a problem is reported on the left, it does not matter which one is on the right. -/
theorem report (h : a.Below b) (problem problem' : Problem) (token token' : Token) :
    Improves a b (a.report problem token) (b.report problem' token') := by
  apply of_found ((Extends.refl a).report ..) ((Extends.refl b).report ..)
  · exact (h.report_left ..).report_right ..
  · exact (Extends.refl a).not_silent_report problem token

/-- What came of the two analyses is held against a rule.  It need not be the same on both sides
unless nothing was found on the left. -/
theorem judge {α : Type} (h : Improves a b a' b') {x y : α} (rule : α → Option Problem)
    (token : Token) (same : a'.diagnostics = a.diagnostics → y = x) :
    Improves a b (a'.reportAny (rule x) token) (b'.reportAny (rule y) token) where
  left := h.left.reportAny ..
  right := h.right.reportAny ..
  below := (h.below.reportAny_left ..).extends_right ((Extends.refl b').reportAny ..)
  silent nothing := by
    obtain ⟨silentBefore, noProblem⟩ := h.left.silent_reportAny_iff.mp nothing
    rw [same silentBefore]
    exact h.right.silent_reportAny_iff.mpr ⟨h.silent silentBefore, noProblem⟩

end Improves

end Context

open Context

/-! ## Expressions -/

namespace Expr

/-- What is assigned is analyzed on the way to the end of the assignment. -/
theorem extends_source (token : Token) (source : Expr) (known : Option Ty) (ctx : Context) :
    (source.analyze ctx).ctx.Extends ((assign token source known).analyze ctx).ctx := by
  rcases analyze_assign_cases token source known ctx with
    ⟨-, step⟩ | ⟨-, -, step⟩ | ⟨locals, -, assigned, step⟩
  · rw [step]
    exact .refl _
  · rw [step]
    exact (Extends.refl _).report ..
  · rw [step]
    exact (Extends.refl _).assign assigned

/-- The base is analyzed on the way to the end of an access. -/
theorem extends_base (token : Token) (base key : Expr) (known : Option Ty) (ctx : Context) :
    (base.analyze ctx).ctx.Extends ((index token base key known).analyze ctx).ctx := by
  have behindKey := key.analyze_extends (base.analyze ctx).ctx
  rcases analyze_index_cases token base key known ctx with ⟨-, step⟩ | ⟨-, -, step⟩ |
    ⟨-, -, -, step⟩ | ⟨ty, -, -, -, -, step⟩ | ⟨ty, element, -, -, -, -, step⟩
  · rw [step]
    exact .refl _
  · rw [step]
    exact behindKey
  · rw [step]
    exact behindKey
  · rw [step]
    exact behindKey.report ..
  · rw [step]
    exact behindKey

theorem extends_key (token : Token) (base key : Expr) (known : Option Ty) {ctx : Context}
    (ok : (base.analyze ctx).ok = true) :
    (key.analyze (base.analyze ctx).ctx).ctx.Extends
      ((index token base key known).analyze ctx).ctx := by
  rcases analyze_index_cases token base key known ctx with ⟨wrong, -⟩ | ⟨-, -, step⟩ |
    ⟨-, -, -, step⟩ | ⟨ty, -, -, -, -, step⟩ | ⟨ty, element, -, -, -, -, step⟩
  · rw [ok] at wrong
    cases wrong
  · rw [step]
    exact .refl _
  · rw [step]
    exact .refl _
  · rw [step]
    exact (Extends.refl _).report ..
  · rw [step]
    exact .refl _

/-- What comes of an access by key whose base and key are right depends on the type of the base. -/
theorem analyze_index_of_ok (token : Token) (base key : Expr) (known : Option Ty) (ctx : Context)
    (okBase : (base.analyze ctx).ok = true)
    (okKey : (key.analyze (base.analyze ctx).ctx).ok = true) :
    let b := base.analyze ctx
    let k := key.analyze b.ctx
    (index token base key known).analyze ctx =
      match b.expr.ty? with
      | none => ⟨index token b.expr k.expr known, k.ctx, true⟩
      | some ty =>
        match ty.indexed? with
        | some element => ⟨index token b.expr k.expr (some element), k.ctx, true⟩
        | none => ⟨index token b.expr k.expr known, k.ctx.report (.notIndexable ty.defined) token,
            false⟩ := by
  intro b k
  simp only [analyze, okBase, okKey, if_true]
  rfl

/-- What is right in the first analysis is right in the second, and the same comes of it; and in any
case more variables are set behind the second. -/
structure Checked.Improves (less more : Checked) : Prop where
  below : less.ctx.Below more.ctx
  ok : less.ok = true → more.ok = true
  expr : less.ok = true → more.expr = less.expr

/-- Where the left is wrong the right may be anything. -/
theorem Checked.Improves.of_wrong {less more : Checked} (wrong : less.ok = false)
    (below : less.ctx.Below more.ctx) : Improves less more := by
  refine ⟨below, fun ok => ?_, fun ok => ?_⟩
  · rw [wrong] at ok
    cases ok
  · rw [wrong] at ok
    cases ok

open Checked.Improves

/-- The analysis of an expression improves with what is known. -/
theorem analyze_improves (e : Expr) {a b : Context} (h : a.Below b) :
    (e.analyze a).Improves (e.analyze b) := by
  induction e generalizing a b with
  | value token content known =>
    cases content with
    | typed ty => exact ⟨h, fun _ => rfl, fun _ => rfl⟩
    | failing message => exact .of_wrong rfl ((h.report_left ..).report_right ..)
    | untyped => exact ⟨h, fun _ => rfl, fun _ => rfl⟩
  | read token declared known =>
    have behind := h.extends_right ((read token declared known).analyze_extends b)
    rcases analyze_read_cases token declared known a with
      ⟨-, step⟩ | ⟨-, step⟩ | ⟨isSet, step⟩
    · rw [step]
      exact .of_wrong rfl (behind.report_left ..)
    · rw [step]
      exact .of_wrong rfl (behind.report_left ..)
    · have step' : (read token declared known).analyze b
          = ⟨read token declared (some declared), b, true⟩ := by
        rw [analyze, h.locals.set isSet]
      rw [step, step']
      exact ⟨h, fun _ => rfl, fun _ => rfl⟩
  | assign token source known ih =>
    have behind := (ih h).below.extends_right (extends_source token source known b)
    rcases analyze_assign_cases token source known a with
      ⟨-, step⟩ | ⟨-, -, step⟩ | ⟨less, ok, assigned, step⟩
    · rw [step]
      exact .of_wrong rfl behind
    · rw [step]
      exact .of_wrong rfl (behind.report_left ..)
    · rcases analyze_assign_cases token source known b with
        ⟨wrong, -⟩ | ⟨-, undeclared, -⟩ | ⟨more, -, assigned', step'⟩
      · rw [(ih h).ok ok] at wrong
        cases wrong
      · have undeclared' := ((ih h).below.locals.status?_eq_none_iff _).mp undeclared
        rw [Locals.assign?_eq_none_iff.mpr undeclared'] at assigned
        cases assigned
      · rw [step, step', (ih h).expr ok]
        have grows := (ih h).below.locals.assign assigned assigned'
        exact ⟨(ih h).below.setLocals grows, fun _ => rfl, fun _ => rfl⟩
  | index token base key known ihBase ihKey =>
    have base' := ihBase h
    have key' := ihKey base'.below
    -- Where the first analysis stops the second may go on, and then only sets more variables.
    cases okBase : (base.analyze a).ok with
    | false =>
      have step : (index token base key known).analyze a
          = ⟨index token (base.analyze a).expr key known, (base.analyze a).ctx, false⟩ := by
        simp [analyze, okBase]
      rw [step]
      exact .of_wrong rfl (base'.below.extends_right (extends_base token base key known b))
    | true =>
      have okBase' := base'.ok okBase
      cases okKey : (key.analyze (base.analyze a).ctx).ok with
      | false =>
        have step : (index token base key known).analyze a
            = ⟨index token (base.analyze a).expr (key.analyze (base.analyze a).ctx).expr known,
                (key.analyze (base.analyze a).ctx).ctx, false⟩ := by
          simp [analyze, okBase, okKey]
        rw [step]
        exact .of_wrong rfl (key'.below.extends_right (extends_key token base key known okBase'))
      | true =>
        rw [analyze_index_of_ok token base key known a okBase okKey,
          analyze_index_of_ok token base key known b okBase' (key'.ok okKey), base'.expr okBase,
          key'.expr okKey]
        split
        · exact ⟨key'.below, fun _ => rfl, fun _ => rfl⟩
        · split
          · exact ⟨key'.below, fun _ => rfl, fun _ => rfl⟩
          · exact .of_wrong rfl ((key'.below.report_left ..).report_right ..)

/-- If nothing is found in the first analysis, the expression is right in both, and the same comes of
it. -/
theorem same_of_silent {e : Expr} {a b : Context} (h : a.Below b)
    (silent : (e.analyze a).ctx.diagnostics = a.diagnostics) :
    (e.analyze b).ok = (e.analyze a).ok ∧ (e.analyze b).expr = (e.analyze a).expr := by
  have ok := ok_of_silent silent
  have improves := e.analyze_improves h
  exact ⟨(improves.ok ok).trans ok.symm, improves.expr ok⟩

/-- Something is found at an expression that is wrong. -/
theorem not_silent_of_wrong {e : Expr} {ctx : Context} (wrong : (e.analyze ctx).ok = false) :
    (e.analyze ctx).ctx.diagnostics ≠ ctx.diagnostics := by
  intro silent
  rw [ok_of_silent silent] at wrong
  cases wrong

/-- Behind an expression more is known on the right if it was before, and no more is found there. -/
theorem improves_ctx (e : Expr) {a b : Context} (h : a.Below b) :
    Improves a b (e.analyze a).ctx (e.analyze b).ctx where
  left := e.analyze_extends a
  right := e.analyze_extends b
  below := (e.analyze_improves h).below
  silent nothing := e.diagnostics_of_ok b ((e.analyze_improves h).ok (ok_of_silent nothing))

/-- The first of several expressions is analyzed on the way to the end of all. -/
theorem extends_first (e : Expr) (es : List Expr) (ctx : Context) :
    (e.analyze ctx).ctx.Extends (analyzeWhileOk (e :: es) ctx).2.1 := by
  rw [analyzeWhileOk]
  dsimp only
  split
  · exact analyzeWhileOk_extends es _
  · exact .refl _

/-- The first of several arguments is. -/
theorem extends_first_arg (e : Expr) (es : List Expr) (ctx : Context) :
    (e.analyze ctx).ctx.Extends (analyzeArgs (e :: es) ctx).2.1 := by
  rw [analyzeArgs]
  dsimp only
  split
  · exact analyzeArgs_extends es _
  · exact .refl _

/-- Expressions that may be absent compare as they should. -/
theorem analyzeOptional_improves (e : Option Expr) {a b : Context} (h : a.Below b) :
    Improves a b (analyzeOptional e a).2 (analyzeOptional e b).2 := by
  cases e with
  | none => exact .refl h
  | some e => exact e.improves_ctx h

/-- If nothing is found in the first analysis of several expressions, the same comes of the
second. -/
theorem analyzeWhileOk_improves (es : List Expr) {a b : Context} (h : a.Below b) :
    Improves a b (analyzeWhileOk es a).2.1 (analyzeWhileOk es b).2.1 ∧
      ((analyzeWhileOk es a).2.1.diagnostics = a.diagnostics →
        (analyzeWhileOk es b).1 = (analyzeWhileOk es a).1 ∧
          (analyzeWhileOk es b).2.2 = (analyzeWhileOk es a).2.2) := by
  induction es generalizing a b with
  | nil => exact ⟨.refl h, fun _ => ⟨rfl, rfl⟩⟩
  | cons e es ih =>
    have first := e.improves_ctx h
    obtain ⟨others, same⟩ := ih first.below
    cases ok : (e.analyze a).ok with
    | false =>
      have stopped : (analyzeWhileOk (e :: es) a).2.1 = (e.analyze a).ctx := by
        simp [analyzeWhileOk, ok]
      rw [stopped]
      have found := not_silent_of_wrong ok
      have behind := first.below.extends_right (extends_first e es b)
      refine ⟨.of_found first.left (analyzeWhileOk_extends _ b) behind found, fun silent => ?_⟩
      exact absurd silent found
    | true =>
      have improves := e.analyze_improves h
      rw [analyzeWhileOk, analyzeWhileOk, ok, improves.ok ok, improves.expr ok]
      refine ⟨first.trans others, fun silent => ?_⟩
      obtain ⟨sameExprs, sameOk⟩ := same (first.left.silent_split others.left silent).2
      exact ⟨congrArg ((e.analyze a).expr :: ·) sameExprs, sameOk⟩

/-- If nothing is found in the first analysis of arguments, their types are the same in the
second. -/
theorem analyzeArgs_improves (es : List Expr) {a b : Context} (h : a.Below b) :
    Improves a b (analyzeArgs es a).2.1 (analyzeArgs es b).2.1 ∧
      ((analyzeArgs es a).2.1.diagnostics = a.diagnostics →
        (analyzeArgs es b).2.2 = (analyzeArgs es a).2.2) := by
  induction es generalizing a b with
  | nil => exact ⟨.refl h, fun _ => rfl⟩
  | cons e es ih =>
    have first := e.improves_ctx h
    obtain ⟨others, same⟩ := ih first.below
    cases ok : (e.analyze a).ok with
    | false =>
      have stopped : (analyzeArgs (e :: es) a).2.1 = (e.analyze a).ctx := by simp [analyzeArgs, ok]
      rw [stopped]
      have found := not_silent_of_wrong ok
      have behind := first.below.extends_right (extends_first_arg e es b)
      refine ⟨.of_found first.left (analyzeArgs_extends _ b) behind found, fun silent => ?_⟩
      exact absurd silent found
    | true =>
      have improves := e.analyze_improves h
      rw [analyzeArgs, analyzeArgs, ok, improves.ok ok, improves.expr ok]
      cases (e.analyze a).expr.ty? with
      | none => exact ⟨first, fun _ => rfl⟩
      | some ty =>
        refine ⟨first.trans others, fun silent => ?_⟩
        have sameTys := same (first.left.silent_split others.left silent).2
        exact congrArg (Option.map (ty :: ·)) sameTys

end Expr

/-! ## Headers -/

/-- A header improves with what is known, and if nothing is found in its first analysis, its body
belongs to the same in both. -/
theorem Header.analyze_improves (keyword : Token) (header : Header) {a b : Context}
    (h : a.Below b) :
    Improves a b (header.analyze keyword a).ctx (header.analyze keyword b).ctx ∧
      ((header.analyze keyword a).ctx.diagnostics = a.diagnostics →
        (header.analyze keyword b).kind = (header.analyze keyword a).kind) := by
  cases header with
  | doWhile e | forIn _ e | whileLoop e => exact ⟨e.improves_ctx h, fun _ => rfl⟩
  | forLoop start cond step =>
    have behindStart := Expr.analyzeOptional_improves start h
    have behindCond := Expr.analyzeOptional_improves cond behindStart.below
    have behindStep := Expr.analyzeOptional_improves step behindCond.below
    exact ⟨(behindStart.trans behindCond).trans behindStep, fun _ => rfl⟩
  | switch subject =>
    let subject? (ctx : Context) : Option Ty :=
      if (subject.analyze ctx).ok then (subject.analyze ctx).expr.ty? else none
    have same (silent : (subject.analyze a).ctx.diagnostics = a.diagnostics) :
        subject? b = subject? a := by
      obtain ⟨ok, expr⟩ := Expr.same_of_silent h silent
      show (if (subject.analyze b).ok then _ else _) = if (subject.analyze a).ok then _ else _
      rw [ok, expr]
    have improves := subject.improves_ctx h
    refine ⟨improves.judge Rule.switch? keyword same, fun silent => ?_⟩
    have silentSubject := (improves.left.silent_reportAny_iff.mp silent).1
    exact congrArg Breakable.switch (same silentSubject)

/-! ## Outcomes -/

/-- The analyses that lead from `a` to `less` and from `b` to `more` compare as they should: if the
second comes to its end, so does the first, with fewer variables set; and if the first is clean, so
is the second, provided that the contexts are alike. -/
structure Outcome.Improves {α : Type} (alike : Prop) (a b : Context) (less more : Outcome α) :
    Prop where
  ended : more.fault = none → less.fault = none ∧ less.ctx.Below more.ctx
  clean : alike → less.Clean a → more.Clean b

/-- Two clean parts make a clean sequence. -/
theorem Outcome.Clean.andThen {α β : Type} {outcome : Outcome α} {ctx : Context}
    (h : outcome.Clean ctx) {following : β} {analyze : Context → Outcome β}
    (rest : (analyze outcome.ctx).Clean outcome.ctx) :
    (outcome.andThen following analyze).Clean ctx := by
  obtain ⟨node, after, _ | fault⟩ := outcome
  · exact ⟨rest.1, rest.2.trans h.2⟩
  · cases h.1

namespace Outcome.Improves

variable {α β : Type} {alike : Prop} {a b a' b' : Context} {less more : Outcome α}

/-- Without a fault only the contexts have to compare. -/
theorem of_done {node node' : α} (h : Context.Improves a b a' b') :
    Improves alike a b (.done node a') (.done node' b') where
  ended _ := ⟨rfl, h.below⟩
  clean _ clean := ⟨rfl, h.silent clean.2⟩

/-- What is made of the nodes does not matter. -/
theorem map (h : Improves alike a b less more) (f g : α → β) :
    Improves alike a b (less.map f) (more.map g) where
  ended := h.ended
  clean := h.clean

theorem passing {less more : Outcome Stmt} (h : Improves alike a b less more) :
    Improves alike a b less.passing more.passing := by
  obtain ⟨node, ctx, _ | fault⟩ := more
  · constructor
    · intro ended
      obtain ⟨ended', below⟩ := h.ended ended
      rw [Outcome.passing, ended']
      exact ⟨ended', below⟩
    · exact fun same clean => h.clean same (Clean.of_passing clean)
  · constructor
    · intro ended
      cases ended
    · intro same clean
      cases (h.clean same (Clean.of_passing clean)).1

/-- What comes first may make the contexts less alike, unless it finds nothing. -/
theorem behind {alike' : Prop} (first : Context.Improves a b a' b') (rest : a'.Extends less.ctx)
    (same : alike → a'.diagnostics = a.diagnostics → alike')
    (h : Improves alike' a' b' less more) : Improves alike a b less more where
  ended := h.ended
  clean isAlike clean := by
    obtain ⟨silentFirst, silentRest⟩ := first.left.silent_split rest clean.2
    obtain ⟨ended, silentRest'⟩ := h.clean (same isAlike silentFirst) ⟨clean.1, silentRest⟩
    exact ⟨ended, silentRest'.trans (first.silent silentFirst)⟩

/-- Two analyses one after the other. -/
theorem andThen (h : Improves (b.stack.owners = a.stack.owners) a b less more) (following : β)
    {analyze : Context → Outcome β} (first : a.Extends less.ctx) (first' : b.Extends more.ctx)
    (extension : ∀ ctx : Context, ctx.Extends (analyze ctx).ctx)
    (rest : ∀ {a b : Context}, a.Below b →
      Improves (b.stack.owners = a.stack.owners) a b (analyze a) (analyze b)) :
    Improves (b.stack.owners = a.stack.owners) a b (less.andThen following analyze)
      (more.andThen following analyze) := by
  constructor
  · intro ended
    obtain ⟨node, ctx, _ | fault⟩ := more
    · obtain ⟨endedFirst, below⟩ := h.ended rfl
      obtain ⟨endedRest, belowRest⟩ := (rest below).ended ended
      rw [Outcome.andThen, endedFirst]
      exact ⟨endedRest, belowRest⟩
    · cases ended
  · intro same clean
    obtain ⟨cleanFirst, cleanRest⟩ := clean.of_andThen first extension
    have cleanFirst' := h.clean same cleanFirst
    obtain ⟨-, below⟩ := h.ended cleanFirst'.1
    have same' : more.ctx.stack.owners = less.ctx.stack.owners := by
      rw [first'.owners, first.owners, same]
    exact cleanFirst'.andThen ((rest below).clean same' cleanRest)

/-- A list in a block of its own.  Whether the lists are alike also depends on the owners of the
blocks. -/
theorem within {owner owner' : Owner} {analyze : Context → Outcome α} (below : a.Below b)
    (written : owner'.asWritten = owner.asWritten)
    (extension : ∀ ctx : Context, ctx.Extends (analyze ctx).ctx)
    (h : ∀ {a b : Context}, a.Below b →
      Improves (b.stack.owners = a.stack.owners) a b (analyze a) (analyze b)) :
    Improves (owner' = owner ∧ b.stack.owners = a.stack.owners) a b (a.within owner analyze)
      (b.within owner' analyze) := by
  have inside := h (below.enter written)
  constructor
  · intro ended
    refine ⟨(inside.ended ended).1, below.restored ?_ ?_ ?_ ?_⟩
    · exact .within (extension _)
    · exact .within (extension _)
    · exact Extends.stack_within (extension _)
    · exact Extends.stack_within (extension _)
  · rintro ⟨rfl, same⟩ clean
    exact inside.clean (congrArg (owner' :: ·) same) clean

end Outcome.Improves

/-! ## Simple statements -/

/-- The problem with the choice of a constructor for arguments of the given types; there is none if
the types are not known. -/
def ClassDef.overloadProblem? (cls : ClassDef) : Option (List Ty) → Option Problem
  | none => none
  | some tys =>
    match cls.resolveConstructor tys with
    | .ok _ => none
    | .error error => some (.overload error)

namespace Simple

open Outcome.Improves

variable {a b : Context}

/-- The context behind a constructor invocation whose class is found. -/
theorem snd_analyzeConstruct (target : QualifiedName) (args : List Expr)
    (resolution : Option Resolution) (ctx : Context) {cls : ClassDef}
    (found : target.resolve ctx = .ok cls) :
    (analyzeConstruct target args resolution ctx).2
      = (Expr.analyzeArgs args ctx).2.1.reportAny
          (cls.overloadProblem? (Expr.analyzeArgs args ctx).2.2) target.token := by
  rw [analyzeConstruct, found]
  dsimp only
  cases (Expr.analyzeArgs args ctx).2.2 with
  | none => rfl
  | some tys =>
    rw [ClassDef.overloadProblem?]
    dsimp only
    cases cls.resolveConstructor tys with
    | ok resolution => rfl
    | error error => rfl

/-- Invocations compare as they should: with more variables set, arguments are found wrong no
earlier. -/
theorem analyzeConstruct_improves (target : QualifiedName) (args : List Expr)
    (resolution : Option Resolution) (h : a.Below b) :
    Context.Improves a b (analyzeConstruct target args resolution a).2
      (analyzeConstruct target args resolution b).2 := by
  have sameClass : target.resolve b = target.resolve a := by
    rw [QualifiedName.resolve, QualifiedName.resolve, h.function, h.classes]
  cases resolved : target.resolve a with
  | error problem =>
    rw [resolved] at sameClass
    rw [analyzeConstruct, analyzeConstruct, resolved, sameClass]
    exact .report h ..
  | ok cls =>
    rw [resolved] at sameClass
    rw [snd_analyzeConstruct target args resolution a resolved,
      snd_analyzeConstruct target args resolution b sameClass]
    obtain ⟨improves, same⟩ := Expr.analyzeArgs_improves args h
    exact improves.judge cls.overloadProblem? target.token same

/-- A rule that applies to an expression if that is right. -/
theorem analyzeWith_improves (e : Expr) (keyword : Token) (rule : Expr → Option Problem)
    (h : a.Below b) :
    Context.Improves a b (analyzeWith e a keyword rule).2 (analyzeWith e b keyword rule).2 := by
  let checked (ctx : Context) : Bool × Expr := ((e.analyze ctx).ok, (e.analyze ctx).expr)
  let ruleIfOk (checked : Bool × Expr) : Option Problem :=
    if checked.1 then rule checked.2 else none
  have isRule (ctx : Context) : (analyzeWith e ctx keyword rule).2
      = (e.analyze ctx).ctx.reportAny (ruleIfOk (checked ctx)) keyword := by
    show (if (e.analyze ctx).ok then _ else _)
      = (e.analyze ctx).ctx.reportAny (if (e.analyze ctx).ok then _ else none) keyword
    cases (e.analyze ctx).ok with
    | false => rfl
    | true => rfl
  rw [isRule, isRule]
  apply (e.improves_ctx h).judge ruleIfOk keyword
  intro silent
  obtain ⟨ok, expr⟩ := Expr.same_of_silent h silent
  exact Prod.ext ok expr

/-- A rule that applies to several expressions if they are right. -/
theorem analyzeAllWith_improves (es : List Expr) (keyword : Token)
    (rule : List Expr → Option Problem) (h : a.Below b) :
    Context.Improves a b (analyzeAllWith es a keyword rule).2
      (analyzeAllWith es b keyword rule).2 := by
  let checked (ctx : Context) : Bool × List Expr :=
    ((Expr.analyzeWhileOk es ctx).2.2, (Expr.analyzeWhileOk es ctx).1)
  let ruleIfOk (checked : Bool × List Expr) : Option Problem :=
    if checked.1 then rule checked.2 else none
  have isRule (ctx : Context) : (analyzeAllWith es ctx keyword rule).2
      = (Expr.analyzeWhileOk es ctx).2.1.reportAny (ruleIfOk (checked ctx)) keyword := by
    show (if (Expr.analyzeWhileOk es ctx).2.2 then _ else _)
      = (Expr.analyzeWhileOk es ctx).2.1.reportAny
          (if (Expr.analyzeWhileOk es ctx).2.2 then _ else none) keyword
    cases (Expr.analyzeWhileOk es ctx).2.2 with
    | false => rfl
    | true => rfl
  obtain ⟨improves, same⟩ := Expr.analyzeWhileOk_improves es h
  rw [isRule, isRule]
  apply improves.judge ruleIfOk keyword
  intro silent
  obtain ⟨exprs, ok⟩ := same silent
  exact Prod.ext ok exprs

/-- Jumps are judged by what is written around them, so the same is found in both analyses. -/
theorem analyzeJump_improves (kind : JumpKind) (keyword : Token) (label : Option Token)
    (h : a.Below b) :
    Context.Improves a b (analyzeJump kind keyword label a) (analyzeJump kind keyword label b) := by
  let jump : Jump := ⟨kind, keyword, label, a.stack.owners.map Owner.enclosure⟩
  have around : jump.around = a.stack.owners.map Owner.enclosure := rfl
  have around' : jump.around = b.stack.owners.map Owner.enclosure := h.enclosures.symm
  have less : analyzeJump kind keyword label a = _ := analyzeJump_eq around
  have more : analyzeJump kind keyword label b = _ := analyzeJump_eq around'
  refine ⟨analyzeJump_extends .., analyzeJump_extends .., ?_, ?_⟩
  · rw [less, more]
    exact { h with }
  · rw [less, more]
    intro silent
    have nothing : jump.found = [] := List.append_right_eq_self.mp silent
    exact List.append_right_eq_self.mpr nothing

/-- The expression of a case is analyzed on the way to its end. -/
theorem extends_case (keyword : Token) (e : Expr) (ctx : Context) :
    (e.analyze ctx).ctx.Extends (analyzeCase keyword e ctx).ctx := by
  rw [analyzeCase]
  split
  · split
    · exact (Extends.refl _).reportAny ..
    · exact .refl _
  · exact .refl _

/-- A case that is right in the first analysis and stands in no switch is at fault in both, and one
that is held against a subject in a clean analysis is held against the same subject in the other. -/
theorem analyzeCase_improves (keyword : Token) (e : Expr) (h : a.Below b) :
    Outcome.Improves (b.stack.owners = a.stack.owners) a b (analyzeCase keyword e a)
      (analyzeCase keyword e b) := by
  have improves := e.analyze_improves h
  have behind := improves.below.extends_right (extends_case keyword e b)
  rcases analyzeCase_cases keyword e a with
    ⟨wrong, step⟩ | ⟨subject, ok, inside, step⟩ | ⟨ok, outside, step⟩
  · rw [step]
    exact ⟨fun _ => ⟨rfl, behind⟩, fun _ clean => absurd clean.2 (Expr.not_silent_of_wrong wrong)⟩
  · rw [step]
    refine ⟨fun _ => ⟨rfl, behind.reportAny_left ..⟩, fun alike clean => ?_⟩
    have inside' : b.stack.top.owner.subject? = some subject := by
      rw [BlockStack.owner_top, alike, ← BlockStack.owner_top, inside]
    rcases analyzeCase_cases keyword e b with
      ⟨wrong, -⟩ | ⟨subject', -, isSubject, step'⟩ | ⟨-, outside, -⟩
    · rw [improves.ok ok] at wrong
      cases wrong
    · rw [isSubject] at inside'
      cases inside'
      have judged := (e.improves_ctx h).judge (Rule.case? subject) keyword
        fun _ => congrArg Expr.ty? (improves.expr ok)
      rw [step']
      exact ⟨rfl, judged.silent clean.2⟩
    · rw [inside'] at outside
      cases outside
  · constructor
    · intro (ended : ((caseLabel keyword e).analyze b).fault = none)
      have outside' : b.stack.top.owner.isSwitch = false := by
        rw [h.isSwitch_top, Owner.isSwitch_eq, outside]
        rfl
      rw [fault_analyze_iff.mpr (.inr ⟨keyword, e, rfl, outside', improves.ok ok, rfl⟩)] at ended
      cases ended
    · intro _ clean
      rw [step] at clean
      cases clean.1

/-- Simple statements compare as they should in contexts that do. -/
theorem analyze_improves (s : Simple) (h : a.Below b) :
    Outcome.Improves (b.stack.owners = a.stack.owners) a b (s.analyze a) (s.analyze b) := by
  cases s with
  | construct target args resolution =>
    exact of_done (analyzeConstruct_improves target args resolution h)
  | expression e => exact of_done (e.improves_ctx h)
  | ret keyword e =>
    rw [analyze, analyze, h.function]
    exact of_done (analyzeWith_improves e keyword _ h)
  | delete keyword e => exact of_done (analyzeWith_improves e keyword _ h)
  | jump kind keyword label => exact of_done (analyzeJump_improves kind keyword label h)
  | caseLabel keyword e => exact analyzeCase_improves keyword e h
  | defaultLabel keyword => exact of_done (.refl h)
  | assert keyword exprs =>
    cases exprs with
    | nil =>
      constructor
      · intro ended
        cases ended
      · intro _ clean
        cases clean.1
    | cons e es =>
      rw [analyze, analyze]
      exact of_done (analyzeAllWith_improves (e :: es) keyword _ h)
  | log keyword exprs =>
    rw [analyze, analyze]
    exact of_done (analyzeAllWith_improves exprs keyword _ h)

end Simple

/-! ## Statements -/

namespace Stmt

open Outcome.Improves

/-- A list in a block of its own extends the context around it. -/
theorem within_extends (body : List Stmt) (owner : Owner) (ctx : Context) :
    ctx.Extends (ctx.within owner (analyzeList body)).ctx :=
  .within (analyzeList_extends body _)

/-- A list in a block, where the owner of the block is the same in both analyses. -/
theorem within_improves (body : List Stmt) (owner : Owner)
    (h : ∀ {a b : Context}, a.Below b →
      Outcome.Improves (b.stack.owners = a.stack.owners) a b (analyzeList body a)
        (analyzeList body b)) {a b : Context} (below : a.Below b) :
    Outcome.Improves (b.stack.owners = a.stack.owners) a b (a.within owner (analyzeList body))
      (b.within owner (analyzeList body)) := by
  have inside := within below (rfl : owner.asWritten = owner.asWritten) (analyzeList_extends body) h
  exact ⟨inside.ended, fun alike => inside.clean ⟨rfl, alike⟩⟩

mutual

/-- Statements compare as they should: with more variables set nothing more is found. -/
theorem analyze_improves : (s : Stmt) → {a b : Context} → a.Below b →
    Outcome.Improves (b.stack.owners = a.stack.owners) a b (s.analyze a) (s.analyze b)
  | simple s, a, b, h => by
    rw [analyze, analyze]
    exact ((s.analyze_improves h).map simple simple).passing
  | breakable keyword label header body, a, b, h => by
    obtain ⟨opened, sameKind⟩ := header.analyze_improves keyword h
    have written := (header.asWritten_kind_analyze keyword b label).trans
      (header.asWritten_kind_analyze keyword a label).symm
    rw [analyze, analyze]
    apply passing
    apply map
    -- If the header is wrong, the bodies may belong to different owners, written in the same way.
    refine behind opened (within_extends body _ _) (fun alike silent => ?_)
      (within opened.below written (analyzeList_extends body) (analyzeList_improves body))
    exact ⟨congrArg (Owner.breakable · label) (sameKind silent), opened.owners alike⟩
  | ifElse keyword cond onTrue onFalse, a, b, h => by
    have first := cond.improves_ctx h
    have insideTrue := within_extends onTrue .branch
    have insideFalse := within_extends onFalse .branch
    have arm := within_improves onTrue .branch (analyzeList_improves onTrue) first.below
    have arms := arm.andThen onFalse (insideTrue _) (insideTrue _) insideFalse
      (within_improves onFalse .branch (analyzeList_improves onFalse))
    rw [analyze, analyze]
    apply passing
    apply map
    exact behind first ((insideTrue _).andThen insideFalse) (fun alike _ => first.owners alike) arms
  | guarded keyword body caught handler finalizer, a, b, h => by
    have inside := within_extends body .guarded
    have improves := within_improves body .guarded (analyzeList_improves body) h
    have withHandler := improves.andThen handler (inside a) (inside b) (analyzePart_extends handler)
      (analyzePart_improves handler)
    rw [analyze, analyze]
    apply passing
    apply map
    exact withHandler.andThen finalizer ((inside a).andThen (analyzePart_extends handler))
      ((inside b).andThen (analyzePart_extends handler)) (analyzePart_extends finalizer)
      (analyzePart_improves finalizer)

/-- The analysis of a list improves with what is known. -/
theorem analyzeList_improves : (body : List Stmt) → {a b : Context} → a.Below b →
    Outcome.Improves (b.stack.owners = a.stack.owners) a b (analyzeList body a)
      (analyzeList body b)
  | [], a, b, h => by
    rw [analyzeList, analyzeList]
    exact of_done (.refl h)
  | s :: rest, a, b, h => by
    rw [analyzeList, analyzeList]
    apply map
    exact (analyze_improves s h).andThen rest (s.analyze_extends a) (s.analyze_extends b)
      (analyzeList_extends rest) (analyzeList_improves rest)

theorem analyzePart_improves : (part : Option (List Stmt)) → {a b : Context} → a.Below b →
    Outcome.Improves (b.stack.owners = a.stack.owners) a b (analyzePart part a)
      (analyzePart part b)
  | none, a, b, h => by
    rw [analyzePart, analyzePart]
    exact of_done (.refl h)
  | some body, a, b, h => by
    rw [analyzePart, analyzePart]
    apply map
    exact within_improves body .guarded (analyzeList_improves body) h

end

/-- **Monotonicity.**  Let a body be analyzed twice in contexts that differ only in the locals of
the innermost list, where the same names are declared and all names that are set in the first context
are set in the second.  If the first analysis comes to its end and finds nothing, so does the second.
If the second comes to its end, so does the first.  And if both do, every name that is set behind the
first is set behind the second. -/
theorem analysis_monotone (body : List Stmt) (ctx : Context) (locals : Locals)
    (declared : ∀ name, locals.status? name = none ↔ ctx.locals.status? name = none)
    (assigned : ∀ name, ctx.locals.status? name = some .set → locals.status? name = some .set) :
    let less := analyzeList body ctx
    let more := analyzeList body (ctx.setLocals locals)
    (less.fault = none ∧ less.ctx.diagnostics = ctx.diagnostics →
      more.fault = none ∧ more.ctx.diagnostics = ctx.diagnostics) ∧
    (more.fault = none → less.fault = none) ∧
    (less.fault = none → more.fault = none → ∀ name,
      less.ctx.locals.status? name = some .set → more.ctx.locals.status? name = some .set) := by
  intro less more
  have grows : ctx.locals.Grows locals := Locals.grows_iff.mpr ⟨declared, assigned⟩
  have sameOwners : (ctx.setLocals locals).stack.owners = ctx.stack.owners :=
    BlockStack.owners_setLocals ..
  have below : ctx.Below (ctx.setLocals locals) :=
    { function := rfl
      classes := rfl
      owners := congrArg (List.map Owner.asWritten) sameOwners
      locals := by rw [locals_setLocals]; exact grows }
  have improves := analyzeList_improves body below
  refine ⟨improves.clean sameOwners, fun ended => (improves.ended ended).1, ?_⟩
  intro _ ended name isSet
  exact (improves.ended ended).2.locals.set isSet

/-- In `switch (x) { case "s": case "s": } z = 1;` less is found if `x` is not set, as the cases are
not checked then.  In `x = 1; x;` nothing is found whether or not `x` is set before. -/
theorem analysis_monotone_of_switch :
    let x : Expr := .read (.synthetic "x") .int none
    let constant (ty : Ty) : Expr := .value (.synthetic "1") (.typed ty) none
    let assign (name : String) : Stmt :=
      .simple (.expression (.assign (.synthetic name) (constant .int) none))
    let label : Stmt := .simple (.caseLabel (.synthetic "case") (constant .string))
    let body : List Stmt :=
      [.breakable (.synthetic "switch") none (.switch x) [label, label], assign "z"]
    let right : List Stmt := [assign "x", .simple (.expression x)]
    let ctx := Context.start default ⟨[("x", .unset), ("z", .unset)]⟩ default
    let locals := ctx.locals.declare "x" .set
    let ctx' := ctx.setLocals locals
    ((analyzeList right ctx').fault = none ∧ (analyzeList right ctx').ctx.diagnostics = []) ∧
      (analyzeList body ctx).fault = none ∧
      (analyzeList body ctx').ctx.locals.status? "z" = some .set ∧
      (analyzeList body ctx).ctx.diagnostics.length = 1 ∧
      (analyzeList body ctx').ctx.diagnostics.length = 2 := by
  intro x constant assign label body right ctx locals ctx'
  have isAssigned : ctx.locals.assign? "x" = some locals := rfl
  have grows : ctx.locals.Grows locals := Locals.grows_of_assign? isAssigned
  obtain ⟨declared, assigned⟩ := Locals.grows_iff.mp grows
  have ended : (analyzeList body ctx').fault = none := by decide +kernel
  obtain ⟨clean, -, -⟩ := analysis_monotone right ctx locals declared assigned
  obtain ⟨-, noFault, isSet⟩ := analysis_monotone body ctx locals declared assigned
  refine ⟨clean ⟨by decide +kernel, by decide +kernel⟩, noFault ended, ?_, by decide +kernel,
    by decide +kernel⟩
  exact isSet (noFault ended) ended "z" (by decide +kernel)

end Stmt

end BodyCheck
