import BodyCheck.Proofs.Attribution
import BodyCheck.Proofs.Rules
import BodyCheck.Proofs.Steps

/-!
# What can be reported

Which problems a statement can have, and at which of its tokens they are reported.

## Main definitions

* `Expr.Reports`, `Simple.Reports`, `Stmt.Reports` — what can be reported of an expression, of a
  simple statement and of a statement apart from the lists inside it.
* `Context.FindsOnly` — nothing but certain diagnostics has been found.

## Main statements

* `Stmt.checkOwn_findsOnly` — the checks of a statement find only what can be reported of it.
* `Visit.reports_of_mem_found` — so do all visits.
-/

namespace BodyCheck

/-! ## What has been found -/

/-- All that has been found on the way from `before` to `after` has the property `P`. -/
def Context.FindsOnly (P : Diagnostic → Prop) (before after : Context) : Prop :=
  ∃ found, after.diagnostics = before.diagnostics ++ found ∧ ∀ d ∈ found, P d

namespace Context.FindsOnly

variable {P Q : Diagnostic → Prop} {a b c : Context}

theorem of_eq (same : b.diagnostics = a.diagnostics) : FindsOnly P a b :=
  ⟨[], by rw [same, List.append_nil], nofun⟩

theorem refl (a : Context) : FindsOnly P a a :=
  of_eq rfl

/-- What is found on two ways, one behind the other, is found on either. -/
theorem trans (h : FindsOnly P a b) (h' : FindsOnly P b c) : FindsOnly P a c := by
  obtain ⟨found, added, hasP⟩ := h
  obtain ⟨found', added', hasP'⟩ := h'
  exact ⟨found ++ found', by rw [added', added, List.append_assoc],
    List.forall_mem_append.mpr ⟨hasP, hasP'⟩⟩

/-- What is found may be described more widely. -/
theorem mono (h : FindsOnly P a b) (imp : ∀ d, P d → Q d) : FindsOnly Q a b := by
  obtain ⟨found, added, hasP⟩ := h
  exact ⟨found, added, fun d mem => imp d (hasP d mem)⟩

theorem report (h : FindsOnly P a b) {problem : Problem} {token : Token}
    (new : P ⟨problem, token⟩) : FindsOnly P a (b.report problem token) :=
  h.trans ⟨[⟨problem, token⟩], rfl, List.forall_mem_singleton.mpr new⟩

theorem reportAny (h : FindsOnly P a b) {problem : Option Problem} {token : Token}
    (new : ∀ p ∈ problem, P ⟨p, token⟩) : FindsOnly P a (b.reportAny problem token) := by
  cases problem with
  | none => exact h
  | some problem => exact h.report (new problem rfl)

end Context.FindsOnly

/-! ## Expressions -/

namespace Expr

/-- What can be reported of an expression. -/
inductive Reports : Expr → Diagnostic → Prop
  | stated (token : Token) (message : String) (known : Option Ty) :
      Reports (value token (.failing message) known) ⟨.stated .type message, token⟩
  | uninitialized (token : Token) (declared : Ty) (known : Option Ty) :
      Reports (read token declared known) ⟨.uninitialized token.value, token⟩
  | undeclared (token : Token) (declared : Ty) (known : Option Ty) :
      Reports (read token declared known) ⟨.undeclared token.value, token⟩
  | source (token : Token) (source : Expr) (known : Option Ty) (d : Diagnostic)
      (h : source.Reports d) : Reports (assign token source known) d
  | unassignable (token : Token) (source : Expr) (known : Option Ty) :
      Reports (assign token source known) ⟨.undeclared token.value, token⟩
  | base (token : Token) (base key : Expr) (known : Option Ty) (d : Diagnostic)
      (h : base.Reports d) : Reports (index token base key known) d
  | key (token : Token) (base key : Expr) (known : Option Ty) (d : Diagnostic)
      (h : key.Reports d) : Reports (index token base key known) d
  | notIndexable (token : Token) (base key : Expr) (known : Option Ty) (ty : Ty) :
      Reports (index token base key known) ⟨.notIndexable ty, token⟩

open Context.FindsOnly

/-- Only such diagnostics are found in an expression as its parts report. -/
theorem analyze_findsOnly (e : Expr) (ctx : Context) :
    Context.FindsOnly e.Reports ctx (e.analyze ctx).ctx := by
  induction e generalizing ctx with
  | value token content known =>
    cases content with
    | failing message => exact (refl ctx).report (.stated token message known)
    | typed ty | untyped => exact refl ctx
  | read token declared known =>
    rcases analyze_read_cases token declared known ctx with ⟨-, step⟩ | ⟨-, step⟩ | ⟨-, step⟩
    · rw [step]
      exact (refl ctx).report (.undeclared token declared known)
    · rw [step]
      exact (refl ctx).report (.uninitialized token declared known)
    · rw [step]
      exact refl ctx
  | assign token source known ih =>
    have sources := (ih ctx).mono (Reports.source token source known)
    rcases analyze_assign_cases token source known ctx with
      ⟨-, step⟩ | ⟨-, -, step⟩ | ⟨locals, -, -, step⟩
    · rw [step]
      exact sources
    · rw [step]
      exact sources.report (.unassignable token source known)
    · rw [step]
      exact sources.trans (of_eq rfl)
  | index token base key known ihBase ihKey =>
    have bases := (ihBase ctx).mono (Reports.base token base key known)
    have keys := (ihKey (base.analyze ctx).ctx).mono (Reports.key token base key known)
    have both := bases.trans keys
    rcases analyze_index_cases token base key known ctx with ⟨-, step⟩ | ⟨-, -, step⟩ |
      ⟨-, -, -, step⟩ | ⟨ty, -, -, -, -, step⟩ | ⟨ty, element, -, -, -, -, step⟩
    · rw [step]
      exact bases
    · rw [step]
      exact both
    · rw [step]
      exact both
    · rw [step]
      exact both.report (.notIndexable token base key known ty.defined)
    · rw [step]
      exact both

/-- What can be reported of one of several expressions. -/
def AnyReports (es : List Expr) (d : Diagnostic) : Prop :=
  ∃ e ∈ es, e.Reports d

/-- An absent expression reports nothing. -/
theorem analyzeOptional_findsOnly (e : Option Expr) (ctx : Context) :
    Context.FindsOnly (AnyReports e.toList) ctx (analyzeOptional e ctx).2 := by
  cases e with
  | none => exact refl ctx
  | some e => exact (e.analyze_findsOnly ctx).mono fun _ h => ⟨e, .head _, h⟩

/-- What is found in the first of several expressions is reported by one of them. -/
theorem analyze_findsOnly_cons (e : Expr) (es : List Expr) (ctx : Context) :
    Context.FindsOnly (AnyReports (e :: es)) ctx (e.analyze ctx).ctx :=
  (e.analyze_findsOnly ctx).mono fun _ h => ⟨e, .head _, h⟩

theorem AnyReports.tail {e : Expr} {es : List Expr} {d : Diagnostic} (h : AnyReports es d) :
    AnyReports (e :: es) d := by
  obtain ⟨e', mem, reports⟩ := h
  exact ⟨e', .tail _ mem, reports⟩

/-- Up to the first wrong one of several expressions, one of them reports what is found. -/
theorem analyzeWhileOk_findsOnly (es : List Expr) (ctx : Context) :
    Context.FindsOnly (AnyReports es) ctx (analyzeWhileOk es ctx).2.1 := by
  induction es generalizing ctx with
  | nil => exact refl ctx
  | cons e es ih =>
    have first := e.analyze_findsOnly_cons es ctx
    rw [analyzeWhileOk]
    dsimp only
    split
    · exact first.trans ((ih _).mono fun _ => AnyReports.tail)
    · exact first

theorem analyzeArgs_findsOnly (es : List Expr) (ctx : Context) :
    Context.FindsOnly (AnyReports es) ctx (analyzeArgs es ctx).2.1 := by
  induction es generalizing ctx with
  | nil => exact refl ctx
  | cons e es ih =>
    have first := e.analyze_findsOnly_cons es ctx
    rw [analyzeArgs]
    dsimp only
    split
    · exact first.trans ((ih _).mono fun _ => AnyReports.tail)
    · exact first

end Expr

/-! ## Statements -/

/-- What can be reported of a simple statement. -/
inductive Simple.Reports : Simple → Diagnostic → Prop
  | expr (s : Simple) (d : Diagnostic) (h : Expr.AnyReports s.exprs d) : Reports s d
  | noSuperclass (target : QualifiedName) (args : List Expr) (known : Option Resolution)
      (cls : String) : Reports (construct target args known) ⟨.noSuperclass cls, target.token⟩
  | unknownClass (target : QualifiedName) (args : List Expr) (known : Option Resolution) :
      Reports (construct target args known)
        ⟨.unknownClass target.token.value target.aliasName?, target.token⟩
  | overload (target : QualifiedName) (args : List Expr) (known : Option Resolution)
      (error : OverloadError) :
      Reports (construct target args known) ⟨.overload error, target.token⟩
  | returnMismatch (keyword : Token) (e : Expr) (actual declared : Ty) :
      Reports (ret keyword e) ⟨.returnMismatch actual declared, keyword⟩
  | notDeletable (keyword : Token) (e : Expr) : Reports (delete keyword e) ⟨.notDeletable, keyword⟩
  | misplaced (kind : JumpKind) (keyword : Token) (label : Option Token) :
      Reports (jump kind keyword label) ⟨.misplacedJump kind, keyword⟩
  | unknownLabel (kind : JumpKind) (keyword label : Token) :
      Reports (jump kind keyword (some label)) ⟨.unknownLabel label.value, label⟩
  | caseMismatch (keyword : Token) (e : Expr) (subject actual : Ty) :
      Reports (caseLabel keyword e) ⟨.caseMismatch subject actual, keyword⟩
  | voidAssertion (keyword : Token) (es : List Expr) :
      Reports (assert keyword es) ⟨.voidAssertion, keyword⟩
  | nullAssertion (keyword : Token) (es : List Expr) :
      Reports (assert keyword es) ⟨.nullAssertion, keyword⟩
  | voidLog (keyword : Token) (es : List Expr) : Reports (log keyword es) ⟨.voidLog, keyword⟩

/-- What can be reported of a statement, apart from what is in the lists inside it. -/
inductive Stmt.Reports : Stmt → Diagnostic → Prop
  | simple (s : Simple) (d : Diagnostic) (h : s.Reports d) : Reports (simple s) d
  | header (keyword : Token) (label : Option Token) (header : Header) (body : List Stmt)
      (d : Diagnostic) (h : Expr.AnyReports header.exprs d) :
      Reports (breakable keyword label header body) d
  | notSwitchable (keyword : Token) (label : Option Token) (subject : Expr) (body : List Stmt) :
      Reports (breakable keyword label (.switch subject) body) ⟨.notSwitchable, keyword⟩
  | condition (keyword : Token) (cond : Expr) (onTrue onFalse : List Stmt) (d : Diagnostic)
      (h : cond.Reports d) : Reports (ifElse keyword cond onTrue onFalse) d

open Context.FindsOnly

namespace Simple

variable {P : Diagnostic → Prop}

/-- Of an invocation its arguments report, or it does itself, at its name. -/
theorem analyzeConstruct_findsOnly (target : QualifiedName) (args : List Expr)
    (known : Option Resolution) (ctx : Context) :
    Context.FindsOnly (construct target args known).Reports ctx
      (analyzeConstruct target args known ctx).2 := by
  have arguments := (Expr.analyzeArgs_findsOnly args ctx).mono
    (Reports.expr (construct target args known))
  rw [analyzeConstruct]
  split
  next problem notFound =>
    rcases QualifiedName.resolve_eq_error_iff.mp notFound with ⟨-, -, rfl⟩ | ⟨-, -, rfl⟩
    · exact (refl ctx).report (.noSuperclass target args known _)
    · exact (refl ctx).report (.unknownClass target args known)
  next cls _ =>
    dsimp only
    split
    · exact arguments
    · split
      · exact arguments
      · exact arguments.report (.overload target args known _)

/-- A statement with one expression reports what this does and what its rule says. -/
theorem analyzeWith_findsOnly {e : Expr} {keyword : Token} {rule : Expr → Option Problem}
    (expr : ∀ d, e.Reports d → P d) (rules : ∀ e, ∀ p ∈ rule e, P ⟨p, keyword⟩) (ctx : Context) :
    Context.FindsOnly P ctx (analyzeWith e ctx keyword rule).2 := by
  have exprs := (e.analyze_findsOnly ctx).mono expr
  rw [analyzeWith]
  dsimp only
  split
  · exact exprs.reportAny (rules _)
  · exact exprs

theorem analyzeAllWith_findsOnly {es : List Expr} {keyword : Token}
    {rule : List Expr → Option Problem} (expr : ∀ d, Expr.AnyReports es d → P d)
    (rules : ∀ es, ∀ p ∈ rule es, P ⟨p, keyword⟩) (ctx : Context) :
    Context.FindsOnly P ctx (analyzeAllWith es ctx keyword rule).2 := by
  have exprs := (Expr.analyzeWhileOk_findsOnly es ctx).mono expr
  rw [analyzeAllWith]
  dsimp only
  split
  · exact exprs.reportAny (rules _)
  · exact exprs

/-- A jump reports that it is misplaced or that its label is not around. -/
theorem analyzeJump_findsOnly (kind : JumpKind) (keyword : Token) (label : Option Token)
    (ctx : Context) :
    Context.FindsOnly (jump kind keyword label).Reports ctx
      (analyzeJump kind keyword label ctx) := by
  cases wrong : Rule.jump? kind ctx.stack.owners with
  | some problem =>
    obtain ⟨-, rfl⟩ := Rule.mem_jump?_iff.mp wrong
    simp only [analyzeJump, wrong]
    exact (refl ctx).report (.misplaced kind keyword label)
  | none =>
    cases label with
    | none =>
      simp only [analyzeJump, wrong]
      exact refl ctx
    | some label =>
      simp only [analyzeJump, wrong]
      refine reportAny (of_eq rfl) fun p mem => ?_
      obtain ⟨-, rfl⟩ := Rule.mem_label?_iff.mp mem
      exact .unknownLabel kind keyword label

/-- A case reports what its expression does and that it does not suit the subject. -/
theorem analyzeCase_findsOnly {keyword : Token} {e : Expr} (expr : ∀ d, e.Reports d → P d)
    (rules : ∀ subject (e : Expr), ∀ p ∈ Rule.case? subject e.ty?, P ⟨p, keyword⟩)
    (ctx : Context) : Context.FindsOnly P ctx (analyzeCase keyword e ctx).ctx := by
  have exprs := (e.analyze_findsOnly ctx).mono expr
  rw [analyzeCase]
  split
  · split
    · exact exprs.reportAny (rules _ _)
    · exact exprs
  · exact exprs

/-- Only such diagnostics are found at a simple statement as it reports. -/
theorem analyze_findsOnly (s : Simple) (ctx : Context) :
    Context.FindsOnly s.Reports ctx (s.analyze ctx).ctx := by
  have one {e : Expr} (isExpr : s.exprs = [e]) (d : Diagnostic) (h : e.Reports d) : s.Reports d :=
    .expr s d (isExpr ▸ ⟨e, .head _, h⟩)
  cases s with
  | construct target args known => exact analyzeConstruct_findsOnly target args known ctx
  | expression e => exact (e.analyze_findsOnly ctx).mono (one rfl)
  | ret keyword e =>
    rw [analyze, Outcome.ctx_done]
    refine analyzeWith_findsOnly (one rfl) (fun e' p mem => ?_) ctx
    obtain ⟨actual, -, -, rfl⟩ := Rule.mem_return?_iff.mp mem
    exact .returnMismatch keyword e actual _
  | delete keyword e =>
    refine analyzeWith_findsOnly (one rfl) (fun e' p mem => ?_) ctx
    obtain ⟨-, rfl⟩ := Rule.mem_delete?_iff.mp mem
    exact .notDeletable keyword e
  | jump kind keyword label => exact analyzeJump_findsOnly kind keyword label ctx
  | caseLabel keyword e =>
    refine analyzeCase_findsOnly (one rfl) (fun _ e' p mem => ?_) ctx
    obtain ⟨subject, actual, -, -, -, rfl⟩ := Rule.mem_case?_iff.mp mem
    exact .caseMismatch keyword e subject actual
  | defaultLabel keyword => exact refl ctx
  | assert keyword exprs =>
    cases exprs with
    | nil => exact refl ctx
    | cons e es =>
      rw [analyze, Outcome.ctx_done]
      refine analyzeAllWith_findsOnly (Reports.expr (assert keyword (e :: es)))
        (fun es' p mem => ?_) ctx
      rcases Rule.mem_assert?_iff.mp mem with ⟨-, rfl⟩ | ⟨-, rfl⟩
      · exact .voidAssertion keyword (e :: es)
      · exact .nullAssertion keyword (e :: es)
  | log keyword exprs =>
    rw [analyze, Outcome.ctx_done]
    refine analyzeAllWith_findsOnly (Reports.expr (log keyword exprs)) (fun es p mem => ?_) ctx
    obtain ⟨-, rfl⟩ := Rule.mem_log?_iff.mp mem
    exact .voidLog keyword exprs

end Simple

/-- Only such diagnostics are found in a header as the loop or switch reports. -/
theorem Header.analyze_findsOnly (keyword : Token) (label : Option Token) (header : Header)
    (body : List Stmt) (ctx : Context) :
    Context.FindsOnly (Stmt.breakable keyword label header body).Reports ctx
      (header.analyze keyword ctx).ctx := by
  have exprs (d : Diagnostic) (h : Expr.AnyReports header.exprs d) :
      (Stmt.breakable keyword label header body).Reports d := .header keyword label header body d h
  cases header with
  | doWhile e | forIn loopVariable e | whileLoop e =>
    exact (e.analyze_findsOnly ctx).mono fun d h => exprs d ⟨e, .head _, h⟩
  | forLoop start cond step =>
    have part (e : Option Expr) (mem : e.toList ⊆ (forLoop start cond step).exprs) (ctx : Context) :
        Context.FindsOnly _ ctx (Expr.analyzeOptional e ctx).2 :=
      (Expr.analyzeOptional_findsOnly e ctx).mono fun d ⟨e, hasE, h⟩ => exprs d ⟨e, mem hasE, h⟩
    refine ((part start ?_ ctx).trans (part cond ?_ _)).trans (part step ?_ _)
    · exact List.subset_append_of_subset_left _ (List.subset_append_left ..)
    · exact List.subset_append_of_subset_left _ (List.subset_append_right ..)
    · exact List.subset_append_right ..
  | switch subject =>
    have subjects := (subject.analyze_findsOnly ctx).mono fun d h => exprs d ⟨subject, .head _, h⟩
    refine subjects.reportAny fun p mem => ?_
    obtain ⟨ty, -, -, rfl⟩ := Rule.mem_switch?_iff.mp mem
    exact .notSwitchable keyword label subject body

/-- The checks of a statement find only what can be reported of it. -/
theorem Stmt.checkOwn_findsOnly (s : Stmt) (ctx : Context) :
    Context.FindsOnly s.Reports ctx (s.checkOwn ctx) := by
  cases s with
  | simple s => exact (s.analyze_findsOnly ctx).mono (Reports.simple s)
  | breakable keyword label header body => exact header.analyze_findsOnly keyword label body ctx
  | ifElse keyword cond onTrue onFalse =>
    exact (cond.analyze_findsOnly ctx).mono (Reports.condition keyword cond onTrue onFalse)
  | guarded keyword body caught handler finalizer => exact refl ctx

/-- What is found at a visit is what the checks of the visited statement find. -/
theorem Visit.of_mem_found {P : Diagnostic → Prop} {v : Visit} {d : Diagnostic}
    (checks : ∀ ctx, Context.FindsOnly P ctx (v.stmt.checkOwn ctx)) (h : d ∈ v.found) : P d := by
  obtain ⟨found, added, hasP⟩ := checks v.ctx.fresh
  have isFound : v.found = found := added.trans (List.nil_append found)
  exact hasP d (isFound ▸ h)

/-- What is found at a visit can be reported of the visited statement. -/
theorem Visit.reports_of_mem_found {v : Visit} {d : Diagnostic} (h : d ∈ v.found) :
    v.stmt.Reports d :=
  v.of_mem_found v.stmt.checkOwn_findsOnly h

end BodyCheck
