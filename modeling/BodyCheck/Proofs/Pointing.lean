import BodyCheck.Proofs.Faults
import BodyCheck.Proofs.Reports
import BodyCheck.Proofs.SiteOrder

/-!
# Where diagnostics point

Every diagnostic points at a token of the statement that it is about, and so into the analyzed tree.
Which token this is depends on the problem: mostly it is the keyword, but it may be the name of a
class, a label, or a token inside an expression.

## Main definitions

* `Stmt.ownTokens` — the tokens of a statement at which something can be found wrong with it.
* `Outcome.PointsInto` — all that an analysis finds and raises points into a body.

## Main statements

* `Stmt.Reports.token_mem_ownTokens` — what can be reported of a statement points at one of these.
* `Stmt.diagnostics_point_into_tree` — all that is found points into the tree, in written order.

## Design notes

The visits of an analysis say which statement a diagnostic is about, and in which order; what can be
reported of a statement says where it points.  Nothing here looks at an analysis itself.
-/

namespace BodyCheck

/-! ## Tokens -/

/-- The tokens of the expression and of all that is inside it. -/
def Expr.tokens (e : Expr) : List Token :=
  e.parts.map token

/-- The tokens that the rules of a statement point at: its keyword, the name of its class or its
label. -/
def Simple.marks : Simple → List Token
  | construct target _ _ => [target.token]
  | expression _ | defaultLabel _ => []
  | ret keyword _ | delete keyword _ | caseLabel keyword _ | assert keyword _ | log keyword _ =>
    [keyword]
  | jump _ keyword label => keyword :: label.toList

namespace Stmt

/-- The tokens that the rules of a statement point at; of those with lists inside, only a switch has
a rule of its own. -/
def marks : Stmt → List Token
  | simple s => s.marks
  | breakable keyword _ (.switch _) _ => [keyword]
  | breakable .. | ifElse .. | guarded .. => []

/-- The tokens of a statement at which something can be found wrong with the statement itself, and
not with one in a list inside it. -/
def ownTokens (s : Stmt) : List Token :=
  s.marks ++ s.exprs.flatMap Expr.tokens

end Stmt

namespace Expr

variable {e : Expr} {es : List Expr} {d : Diagnostic}

/-- What is reported of an expression is reported at one of its tokens. -/
theorem Reports.token_mem (h : e.Reports d) : d.token ∈ e.tokens := by
  have insideAssign (token : Token) (source : Expr) (known : Option Ty) :
      (assign token source known).tokens = token :: source.tokens := rfl
  have insideIndex (token : Token) (base key : Expr) (known : Option Ty) :
      (index token base key known).tokens = token :: (base.tokens ++ key.tokens) :=
    congrArg (token :: ·) List.map_append
  induction h with
  | stated | uninitialized | undeclared => exact List.mem_singleton_self _
  | source token source known d h ih =>
    rw [insideAssign]
    exact .tail _ ih
  | unassignable => exact .head _
  | base token base key known d h ih =>
    rw [insideIndex]
    exact .tail _ (List.mem_append_left _ ih)
  | key token base key known d h ih =>
    rw [insideIndex]
    exact .tail _ (List.mem_append_right _ ih)
  | notIndexable => exact .head _

/-- What is reported of one of several expressions is reported at a token of one of them. -/
theorem AnyReports.token_mem (h : AnyReports es d) : d.token ∈ es.flatMap tokens := by
  obtain ⟨e, mem, reports⟩ := h
  exact List.mem_flatMap.mpr ⟨e, mem, reports.token_mem⟩

end Expr

/-- What can be reported of a simple statement points at one of its own tokens. -/
theorem Simple.Reports.token_mem {s : Simple} {d : Diagnostic} (h : s.Reports d) :
    d.token ∈ s.marks ++ s.exprs.flatMap Expr.tokens := by
  cases h with
  | expr s d h => exact List.mem_append_right _ h.token_mem
  | unknownLabel => exact List.mem_append_left _ (.tail _ (.head _))
  | _ => exact List.mem_append_left _ (.head _)

/-- What can be reported of a statement points at one of its own tokens. -/
theorem Stmt.Reports.token_mem_ownTokens {s : Stmt} {d : Diagnostic} (h : s.Reports d) :
    d.token ∈ s.ownTokens := by
  cases h with
  | simple s d h => exact h.token_mem
  | header keyword label header body d h => exact List.mem_append_right _ h.token_mem
  | notSwitchable => exact List.mem_append_left _ (.head _)
  | condition keyword cond onTrue onFalse d h =>
    have inCond : Expr.AnyReports [cond] d := ⟨cond, .head _, h⟩
    exact List.mem_append_right _ inCond.token_mem

/-! ## Attribution to sites -/

/-- All that the analysis of a body finds and raises points into the body. -/
structure Outcome.PointsInto {α : Type} (body : List Stmt) (before : Context)
    (outcome : Outcome α) : Prop where
  /-- What is found can be attributed to statements of the body to which its tokens belong, in the
  order in which the statements are written. -/
  found : ∃ attributed : List (Site × Diagnostic),
    outcome.ctx.diagnostics = before.diagnostics ++ attributed.map Prod.snd ∧
    (∀ entry ∈ attributed,
      ∃ s, Stmt.stmtAt? entry.1 body = some s ∧ entry.2.token ∈ s.ownTokens) ∧
    attributed.Pairwise fun earlier later =>
      earlier.1 = later.1 ∨ earlier.1.Precedes later.1
  /-- What is raised points at the keyword of an assertion or of a case. -/
  raised : ∀ fault, outcome.fault = some fault → ∃ site,
    (∃ exprs, Stmt.stmtAt? site body = some (.simple (.assert fault.token exprs))) ∨
      ∃ e, Stmt.stmtAt? site body = some (.simple (.caseLabel fault.token e))

namespace Stmt

/-- What is found at the visits, with the sites of the visited statements. -/
def attributedOf (visits : List Visit) : List (Site × Diagnostic) :=
  visits.flatMap fun v => v.found.map (v.site, ·)

/-- Without the sites the attributed diagnostics are those found at the visits. -/
theorem map_snd_attributedOf (visits : List Visit) :
    (attributedOf visits).map Prod.snd = visits.flatMap Visit.found := by
  simp [attributedOf, List.map_flatMap, Function.comp_def]

/-- An attributed diagnostic was found at a visit to its site. -/
theorem exists_visit_of_mem_attributedOf {visits : List Visit} {entry : Site × Diagnostic}
    (h : entry ∈ attributedOf visits) : ∃ v ∈ visits, entry.1 = v.site ∧ entry.2 ∈ v.found := by
  obtain ⟨v, visited, mem⟩ := List.mem_flatMap.mp h
  obtain ⟨d, isFound, rfl⟩ := List.mem_map.mp mem
  exact ⟨v, visited, rfl, isFound⟩

/-- Attributed diagnostics are in the order of their sites if the visits are, and those found at one
visit share a site. -/
theorem pairwise_attributedOf {visits : List Visit}
    (inOrder : visits.Pairwise fun v w => v.site.Precedes w.site) :
    (attributedOf visits).Pairwise fun earlier later =>
      earlier.1 = later.1 ∨ earlier.1.Precedes later.1 := by
  refine List.pairwise_flatMap.mpr ⟨fun v _ => ?_, inOrder.imp fun precedes => ?_⟩
  · exact List.pairwise_map.mpr (List.pairwise_of_forall fun _ _ => .inl rfl)
  · simp [precedes]

/-- What is found in a list can be attributed to its statements in order, each
diagnostic at a token of its statement, and a fault is at the keyword of the statement that raised
it. -/
theorem analyzeList_pointsInto (body : List Stmt) (ctx : Context) :
    (analyzeList body ctx).PointsInto body ctx where
  found := by
    refine ⟨attributedOf (visitsOfList 0 body ctx), ?_, fun entry mem => ?_,
      pairwise_attributedOf (pairwise_visitsOfList 0 body ctx)⟩
    · rw [map_snd_attributedOf]
      exact (attributes_visitsOfList 0 body ctx).found
    · obtain ⟨v, visited, isSite, isFound⟩ := exists_visit_of_mem_attributedOf mem
      rw [isSite]
      exact ⟨v.stmt, (standsIn_of_mem_visitsOfList body ctx v visited).stmt,
        (Visit.reports_of_mem_found isFound).token_mem_ownTokens⟩
  raised fault isRaised := by
    obtain ⟨v, visited, raises⟩ := (endsAt_visitsOfList 0 body ctx).eq_some_iff.mp isRaised
    have isAt := (standsIn_of_mem_visitsOfList body ctx v visited).stmt
    rcases (Visit.fault?_eq_some_iff rfl).mp raises with
      ⟨keyword, isAssert⟩ | ⟨keyword, e, isCase, -, -⟩
    · rw [isAssert] at isAt
      exact ⟨v.site, .inl ⟨[], isAt⟩⟩
    · rw [isCase] at isAt
      exact ⟨v.site, .inr ⟨e, isAt⟩⟩

/-- **Pointing.**  All that an analysis finds in a statement or in a list of statements can be
attributed to the statements there, each of which owns the tokens of its diagnostics, and in the
order in which they are written: first what is found wrong with a statement itself, then what is
found in the lists inside it, one by one, and then what is found in its later siblings.  A fault is
raised at the keyword of an assertion or of a case. -/
theorem diagnostics_point_into_tree :
    (∀ (s : Stmt) (ctx : Context), (s.analyze ctx).PointsInto [s] ctx) ∧
      ∀ (body : List Stmt) (ctx : Context), (analyzeList body ctx).PointsInto body ctx := by
  refine ⟨fun s ctx => ?_, analyzeList_pointsInto⟩
  have alone := analyzeList_pointsInto [s] ctx
  rw [analyzeList_singleton] at alone
  exact ⟨alone.found, alone.raised⟩

end Stmt

end BodyCheck
