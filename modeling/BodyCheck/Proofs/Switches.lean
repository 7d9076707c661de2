import BodyCheck.Proofs.Faults
import BodyCheck.Proofs.Parents
import BodyCheck.Proofs.Reports

/-!
# Switches and their cases

A switch is judged by the type of its subject, and a case by the type of the subject of the switch
in whose body it stands, whatever else is in that body or around it.

## Main definitions

* `Ty.Switchable` and `Ty.Suits` — which subjects a switch may have, and which cases.
* `Problem.isAboutSwitch` — the two problems that switches and cases have.
* `Visit.aboutSwitches` — what is found about switches at a visit, and `Visit.JudgesSubject` and
  `Visit.JudgesCase` — what it should be.

## Main statements

* `Stmt.Reports.of_isAboutSwitch` — such problems are of switches and cases only.
* `Visit.judgesSubject`, `Visit.judgesCase` — what is found at a switch and at a case.
* `Stmt.switches_judged_lexically` — a case is held against the subject of the switch around it.

## Design notes

A case reads the type of the subject off the innermost open block.  That this is the type that the
switch around it was found to have is `Stmt.opens?_of_mem_visitsOfList`.
-/

namespace BodyCheck

/-! ## Types -/

namespace Ty

variable {ty subject actual : Ty}

/-- A switch can tell the values of the type apart. -/
def Switchable (ty : Ty) : Prop :=
  ty ∈ [boolean, int, number, string]

/-- A value of the type `actual` may be a case of a switch over `subject`. -/
inductive Suits (subject actual : Ty) : Prop
  | equal (same : actual.same subject = true)
  | numbers (left : subject = .int ∨ subject = .number) (right : actual = .int ∨ actual = .number)
  | noString (strings : subject = .string) (isNull : actual = .null)

/-- The test for the types of subjects says what it should. -/
theorem isSwitchable_iff : Rule.isSwitchable ty = true ↔ ty.Switchable := by
  rw [Switchable]
  cases ty <;> simp [Rule.isSwitchable]

theorem isNumeric_iff : ty.isNumeric = true ↔ ty = .int ∨ ty = .number := by
  cases ty <;> simp [isNumeric]

theorem isNull_iff : ty.isNull = true ↔ ty = .null := by
  cases ty <;> simp [isNull]

theorem caseFits_iff : Rule.caseFits subject actual = true ↔ subject.Suits actual := by
  simp only [Rule.caseFits, Bool.or_eq_true, Bool.and_eq_true, isNumeric_iff, isNull_iff,
    same_string_iff]
  constructor
  · rintro ((same | ⟨right, left⟩) | ⟨strings, isNull⟩)
    · exact .equal same
    · exact .numbers left right
    · exact .noString strings isNull
  · rintro (same | ⟨left, right⟩ | ⟨strings, isNull⟩)
    · exact .inl (.inl same)
    · exact .inl (.inr ⟨right, left⟩)
    · exact .inr ⟨strings, isNull⟩

end Ty

/-! ## Problems -/

/-- Whether the problem is one that only switches and cases have. -/
def Problem.isAboutSwitch : Problem → Bool
  | notSwitchable | caseMismatch _ _ => true
  | _ => false

/-- What has been found about switches. -/
def Context.aboutSwitches (ctx : Context) : List Diagnostic :=
  ctx.diagnostics.filter (·.problem.isAboutSwitch)

/-- What is found about switches at the visit. -/
def Visit.aboutSwitches (v : Visit) : List Diagnostic :=
  v.found.filter (·.problem.isAboutSwitch)

/-- No part of an expression reports anything about switches. -/
theorem Expr.Reports.isAboutSwitch {e : Expr} {d : Diagnostic} (h : e.Reports d) :
    d.problem.isAboutSwitch = false := by
  induction h <;> first | rfl | assumption

/-- Nothing about switches is found in an expression. -/
theorem Expr.filter_isAboutSwitch {e : Expr} {found : List Diagnostic}
    (h : ∀ d ∈ found, e.Reports d) : found.filter (·.problem.isAboutSwitch) = [] := by
  refine List.filter_eq_nil_iff.mpr fun d mem => ?_
  rw [(h d mem).isAboutSwitch]
  exact Bool.false_ne_true

/-- Problems about switches are reported of switches and of cases, at their keywords. -/
theorem Stmt.Reports.of_isAboutSwitch {s : Stmt} {d : Diagnostic} (h : s.Reports d)
    (isAbout : d.problem.isAboutSwitch = true) :
    (∃ keyword label subject body, s = .breakable keyword label (.switch subject) body ∧
      d = ⟨.notSwitchable, keyword⟩) ∨
    ∃ keyword e subject actual, s = .simple (.caseLabel keyword e) ∧
      d = ⟨.caseMismatch subject actual, keyword⟩ := by
  cases h with
  | simple s _ h =>
    cases h with
    | expr _ _ h =>
      obtain ⟨e, -, h⟩ := h
      rw [h.isAboutSwitch] at isAbout
      cases isAbout
    | caseMismatch keyword e subject actual =>
      exact .inr ⟨keyword, e, subject, actual, rfl, rfl⟩
    | _ => cases isAbout
  | header keyword label header body _ h =>
    obtain ⟨e, -, h⟩ := h
    rw [h.isAboutSwitch] at isAbout
    cases isAbout
  | notSwitchable keyword label subject body =>
    exact .inl ⟨keyword, label, subject, body, rfl, rfl⟩
  | condition keyword cond onTrue onFalse _ h =>
    rw [h.isAboutSwitch] at isAbout
    cases isAbout

/-! ## Visits -/

namespace Visit

variable {v : Visit} {keyword : Token}

/-- What is found at a visit that analyzes an expression and then holds a rule against it. -/
theorem aboutSwitches_of_reportAny (e : Expr) {problem : Option Problem}
    (step : v.stmt.checkOwn v.ctx = (e.analyze v.ctx).ctx.reportAny problem keyword)
    (isAbout : ∀ p ∈ problem, p.isAboutSwitch = true) :
    v.aboutSwitches = problem.toList.map fun problem => ⟨problem, keyword⟩ := by
  obtain ⟨found, added, reports⟩ := e.analyze_findsOnly v.ctx
  have isFound : v.found = found ++ problem.toList.map fun problem => ⟨problem, keyword⟩ := by
    have here := v.diagnostics_checkOwn
    rw [step, Context.diagnostics_reportAny, added, List.append_assoc] at here
    exact (List.append_cancel_left here).symm
  rw [aboutSwitches, isFound, List.filter_append, Expr.filter_isAboutSwitch reports,
    List.nil_append, List.filter_eq_self]
  intro d mem
  obtain ⟨p, memP, rfl⟩ := List.mem_map.mp mem
  exact isAbout p (Option.mem_toList.mp memP)

/-- At a switch the type that is learnt of its subject is judged. -/
theorem aboutSwitches_switch {label : Option Token} {subject : Expr} {body : List Stmt}
    (isSwitch : v.stmt = .breakable keyword label (.switch subject) body) :
    v.aboutSwitches = (Rule.switch? (subject.analyze v.ctx).learnt?).toList.map
      fun problem => ⟨problem, keyword⟩ := by
  refine aboutSwitches_of_reportAny subject ?_ fun p mem => ?_
  · rw [isSwitch]
    rfl
  · obtain ⟨ty, -, -, rfl⟩ := Rule.mem_switch?_iff.mp mem
    rfl

/-- At a case the type that is learnt of its expression is held against the subject of the innermost
open list. -/
theorem aboutSwitches_case {e : Expr} {subject : Option Ty}
    (isCase : v.stmt = .simple (.caseLabel keyword e))
    (inside : v.ctx.stack.top.owner.subject? = some subject) :
    v.aboutSwitches = (Rule.case? subject (e.analyze v.ctx).learnt?).toList.map
      fun problem => ⟨problem, keyword⟩ := by
  refine aboutSwitches_of_reportAny e ?_ fun p mem => ?_
  · have checked : v.stmt.checkOwn v.ctx = (Simple.analyzeCase keyword e v.ctx).ctx := by
      rw [isCase]
      rfl
    rw [checked]
    rcases Simple.analyzeCase_cases keyword e v.ctx with
      ⟨wrong, step⟩ | ⟨subject', ok, inside', step⟩ | ⟨-, outside, -⟩
    · rw [step, Expr.Checked.learnt?_of_not_ok wrong]
      cases subject <;> rfl
    · obtain rfl := Option.some.inj (inside'.symm.trans inside)
      rw [step, Expr.Checked.learnt?_of_ok ok]
      rfl
    · rw [outside] at inside
      cases inside
  · obtain ⟨s, a, -, -, -, rfl⟩ := Rule.mem_case?_iff.mp mem
    rfl

/-- At the visit to a switch nothing is found, or that its subject is of a type that a switch cannot
tell apart. -/
inductive JudgesSubject (v : Visit) (keyword : Token) : Option Ty → Prop
  | right (subject : Option Ty) (switchable : ∀ ty, subject = some ty → ty.Switchable)
      (found : v.aboutSwitches = []) : JudgesSubject v keyword subject
  | wrong (ty : Ty) (unswitchable : ¬ ty.Switchable)
      (found : v.aboutSwitches = [⟨.notSwitchable, keyword⟩]) : JudgesSubject v keyword (some ty)

/-- At the visit to a case nothing is found, or that its type does not suit that of the subject. -/
inductive JudgesCase (v : Visit) (keyword : Token) : Option Ty → Option Ty → Prop
  | right (subject actual : Option Ty)
      (suits : ∀ s a, subject = some s → actual = some a → s.Suits a)
      (found : v.aboutSwitches = []) : JudgesCase v keyword subject actual
  | wrong (s a : Ty) (unsuited : ¬ s.Suits a)
      (found : v.aboutSwitches = [⟨.caseMismatch s a, keyword⟩]) :
      JudgesCase v keyword (some s) (some a)

/-- What is found at a switch is what should be. -/
theorem judgesSubject {label : Option Token} {subject : Expr} {body : List Stmt}
    (isSwitch : v.stmt = .breakable keyword label (.switch subject) body) :
    v.JudgesSubject keyword (subject.analyze v.ctx).learnt? := by
  have found := aboutSwitches_switch isSwitch
  generalize (subject.analyze v.ctx).learnt? = learnt at found ⊢
  cases said : Rule.switch? learnt with
  | some problem =>
    obtain ⟨ty, rfl, wrong, rfl⟩ := Rule.mem_switch?_iff.mp said
    rw [said] at found
    refine .wrong ty (fun switchable => ?_) found
    rw [Ty.isSwitchable_iff.mpr switchable] at wrong
    cases wrong
  | none =>
    rw [said] at found
    exact .right learnt
      (fun ty isTy => Ty.isSwitchable_iff.mp (Rule.switch?_eq_none_iff.mp said ty isTy)) found

/-- What is found at a case is what should be, if the innermost open block is that of a switch. -/
theorem judgesCase {e : Expr} {subject : Option Ty}
    (isCase : v.stmt = .simple (.caseLabel keyword e))
    (inside : v.ctx.stack.top.owner.subject? = some subject) :
    v.JudgesCase keyword subject (e.analyze v.ctx).learnt? := by
  have found := aboutSwitches_case isCase inside
  generalize (e.analyze v.ctx).learnt? = learnt at found ⊢
  cases said : Rule.case? subject learnt with
  | some problem =>
    obtain ⟨s, a, rfl, rfl, wrong, rfl⟩ := Rule.mem_case?_iff.mp said
    rw [said] at found
    refine .wrong s a (fun suits => ?_) found
    rw [Ty.caseFits_iff.mpr suits] at wrong
    cases wrong
  | none =>
    rw [said] at found
    exact .right subject learnt (fun s a isSubject isActual =>
      Ty.caseFits_iff.mp (Rule.case?_eq_none_iff.mp said s a isSubject isActual)) found

end Visit

namespace Stmt

/-- **Switches.**  The analysis of a body goes through its statements in order, to the end or up to
a fault.  What it finds about switches it finds at switches and at cases, in words that name the two
types of a case that does not suit.  At a switch it is found whether the type of the subject is one
that a switch can tell apart.  At a case among the statements of the body of the switch it is found
whether its type suits that of this subject, and it is visited if there is no fault. -/
theorem switches_judged_lexically (body : List Stmt) (ctx : Context) :
    let visits := visitsOfList 0 body ctx
    let outcome := analyzeList body ctx
    GoesThrough outcome.fault visits (sitesOfList 0 body) ∧
    outcome.ctx.aboutSwitches = ctx.aboutSwitches ++ visits.flatMap Visit.aboutSwitches ∧
    (∀ v ∈ visits, stmtAt? v.site body = some v.stmt ∧
      ∀ d ∈ v.aboutSwitches,
        (∃ keyword label subject inner, v.stmt = .breakable keyword label (.switch subject) inner ∧
          d = ⟨.notSwitchable, keyword⟩ ∧
          d.message = "switch statement only accepts boolean, number, or string expressions") ∨
        ∃ keyword e s a, v.stmt = .simple (.caseLabel keyword e) ∧
          d = ⟨.caseMismatch s a, keyword⟩ ∧
          d.message
            = "type mismatch; expected type was '" ++ s.text ++ "' but got '" ++ a.text ++ "'") ∧
    ∀ v ∈ visits, ∀ keyword label subject inner,
      v.stmt = .breakable keyword label (.switch subject) inner →
      let subjectTy := (subject.analyze v.ctx).learnt?
      v.JudgesSubject keyword subjectTy ∧
      ∀ j keyword' e, inner[j]? = some (.simple (.caseLabel keyword' e)) →
        let site : Site := ⟨v.site.place ++ [(v.site.index, .body)], j⟩
        (outcome.fault = none → ∃ w ∈ visits, w.site = site) ∧
        ∀ w ∈ visits, w.site = site → w.stmt = .simple (.caseLabel keyword' e) ∧
          w.JudgesCase keyword' subjectTy (e.analyze w.ctx).learnt? := by
  intro visits outcome
  have standsIn : ∀ v ∈ visits, v.StandsIn body ctx.stack.owners :=
    standsIn_of_mem_visitsOfList body ctx
  refine ⟨goesThrough_visitsOfList 0 body ctx, ?_, fun v hv => ⟨(standsIn v hv).stmt, ?_⟩,
    fun v hv keyword label subject inner isSwitch => ⟨v.judgesSubject isSwitch, ?_⟩⟩
  · rw [Context.aboutSwitches, (attributes_visitsOfList 0 body ctx).found, List.filter_append,
      List.filter_flatMap]
    rfl
  · intro d mem
    obtain ⟨isFound, isAbout⟩ := List.mem_filter.mp mem
    rcases (Visit.reports_of_mem_found isFound).of_isAboutSwitch isAbout with
      ⟨keyword, label, subject, inner, isSwitch, rfl⟩ | ⟨keyword, e, s, a, isCase, rfl⟩
    · exact .inl ⟨keyword, label, subject, inner, isSwitch, rfl, rfl⟩
    · exact .inr ⟨keyword, e, s, a, isCase, rfl, rfl⟩
  · intro j keyword' e isElement site
    have isAt : stmtAt? site body = some (.simple (.caseLabel keyword' e)) := by
      rw [stmtAt?_inside (standsIn v hv).stmt (by rw [isSwitch]; rfl), isElement]
    refine ⟨fun ended => ?_, fun w hw isSite => ?_⟩
    · obtain ⟨w, hw, isSite, -⟩ := exists_visit_of_stmtAt? ended isAt
      exact ⟨w, hw, isSite⟩
    · have isCase : w.stmt = .simple (.caseLabel keyword' e) :=
        Option.some.inj ((standsIn w hw).stmt.symm.trans (isSite ▸ isAt))
      refine ⟨isCase, w.judgesCase isCase ?_⟩
      -- The innermost open list is the body of `v`, and the visit to `v` opened it.
      have opened := opens?_of_mem_visitsOfList hv hw (congrArg Site.place isSite)
      rw [isSwitch] at opened
      rw [← Option.some.inj opened]
      rfl

/-- Behind a switch over an array, with a case in it, null may be a case of the strings of the outer
switch, and an integer may not. -/
theorem switches_judged_lexically_of_nest :
    let value (ty : Ty) : Expr := .value (.synthetic "v") (.typed ty) none
    let caseOf (keyword : String) (ty : Ty) : Stmt :=
      .simple (.caseLabel (.synthetic keyword) (value ty))
    let switchOver (keyword : String) (ty : Ty) (inner : List Stmt) : Stmt :=
      .breakable (.synthetic keyword) none (.switch (value ty)) inner
    let inner := [switchOver "inner" (.array .int) [caseOf "first" .int], caseOf "second" .null,
      caseOf "third" .int]
    let body := [switchOver "outer" .string inner]
    let ctx := Context.start default .empty default
    let outcome := analyzeList body ctx
    let reports : List Diagnostic := [⟨.notSwitchable, .synthetic "inner"⟩,
      ⟨.caseMismatch (.array .int) .int, .synthetic "first"⟩,
      ⟨.caseMismatch .string .int, .synthetic "third"⟩]
    outcome.fault = none ∧
      outcome.ctx.aboutSwitches = reports ∧
      reports.map Diagnostic.message =
        ["switch statement only accepts boolean, number, or string expressions",
          "type mismatch; expected type was 'int[]' but got 'int'",
          "type mismatch; expected type was 'string' but got 'int'"] ∧
      ∃ v ∈ visitsOfList 0 body ctx, v.site = ⟨[], 0⟩ ∧ v.stmt = switchOver "outer" .string inner ∧
        v.JudgesSubject (.synthetic "outer") (some .string) ∧
        inner[2]? = some (caseOf "third" .int) ∧
        ∃ w ∈ visitsOfList 0 body ctx, w.site = ⟨[(0, .body)], 2⟩ ∧
          w.JudgesCase (.synthetic "third") (some .string) (some .int) := by
  intro value caseOf switchOver inner body ctx outcome reports
  have ended : outcome.fault = none := by decide +kernel
  obtain ⟨-, found, -, atSwitches⟩ := switches_judged_lexically body ctx
  let v : Visit := ⟨⟨[], 0⟩, switchOver "outer" .string inner, ctx⟩
  have visited : v ∈ visitsOfList 0 body ctx := .head _
  have isElement : inner[2]? = some (caseOf "third" .int) := rfl
  obtain ⟨judged, atCases⟩ :=
    atSwitches v visited (.synthetic "outer") none (value .string) inner rfl
  obtain ⟨reached, judgedCase⟩ := atCases 2 (.synthetic "third") (value .int) isElement
  obtain ⟨w, hw, isSite⟩ := reached ended
  refine ⟨ended, found.trans ?_, ?_, v, visited, rfl, rfl, judged, isElement, w, hw, isSite, ?_⟩
  · decide +kernel
  · decide +kernel
  · exact (judgedCase w hw isSite).2

end Stmt

end BodyCheck
