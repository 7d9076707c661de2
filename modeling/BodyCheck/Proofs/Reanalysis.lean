import BodyCheck.Analyzer
import BodyCheck.Proofs.AsBuilt

/-!
# Repeated analysis

A statement may be analyzed again and again, in one context after another, and so may the bodies of
a unit.  What comes of an analysis does not depend on the ones before it.

## Main definitions

* `Stmt.IsNew` and `Stmt.reanalyzed` — a statement without a history, and with one.
* `Run.told` — what a run over bodies tells.
* `Request` and `Request.performAll` — analyses of bodies of a unit, one after the other.

## Main statements

* `Stmt.map_analyze_reanalyzed` — a history makes no difference to the analysis of a statement.
* `Request.told_performAll` — what a request tells does not depend on the ones before it.
* `FunctionBody.analyses_independent` — both for statements and for bodies that are new.

## Design notes

After any history a statement is consistent and is, as built, what it was; these two facts are all
that is used of the past, and the same two carry over to bodies and to lists of bodies.
-/

namespace BodyCheck

/-! ## Histories -/

namespace Stmt

/-- Nothing has been found about the statement yet. -/
def IsNew (s : Stmt) : Prop :=
  s.asBuilt = s

/-- The statement after analyses in several contexts, one after the other. -/
def reanalyzed (s : Stmt) (history : List Context) : Stmt :=
  history.foldl (fun s ctx => (s.analyze ctx).node) s

/-- Of a new statement nothing is known yet, so nothing that is known of it is wrong. -/
theorem IsNew.consistent {s : Stmt} (h : s.IsNew) : s.Consistent := by
  rw [← h]
  exact s.consistent_asBuilt

/-- No history of analyses changes what was built. -/
theorem asBuilt_reanalyzed (s : Stmt) (history : List Context) :
    (s.reanalyzed history).asBuilt = s.asBuilt := by
  induction history generalizing s with
  | nil => rfl
  | cons ctx rest ih => exact (ih (s.analyze ctx).node).trans (s.asBuilt_analyze ctx)

theorem consistent_reanalyzed {s : Stmt} (h : s.Consistent) (history : List Context) :
    (s.reanalyzed history).Consistent := by
  induction history generalizing s with
  | nil => exact h
  | cons ctx rest ih => exact ih (s.consistent_analyze h ctx)

/-- What comes of the analysis of a new statement comes of it also after other analyses. -/
theorem map_analyze_reanalyzed {s : Stmt} (h : s.IsNew) (history : List Context) (ctx : Context) :
    ((s.reanalyzed history).analyze ctx).map asBuilt = (s.analyze ctx).map asBuilt :=
  -- What the history has left behind is put aside first; then there is no history.
  calc ((s.reanalyzed history).analyze ctx).map asBuilt
    _ = ((s.reanalyzed history).asBuilt.analyze ctx).map asBuilt :=
      (analyze_asBuilt _ (consistent_reanalyzed h.consistent history) ctx).symm
    _ = (s.analyze ctx).map asBuilt := by rw [asBuilt_reanalyzed, h]

end Stmt

/-! ## Bodies -/

namespace FunctionBody

/-- The body with its statements as they were built. -/
def asBuilt (body : FunctionBody) : FunctionBody :=
  { body with statements := Stmt.asBuiltList body.statements }

/-- The types that have been found in a body are the static types. -/
def Consistent (body : FunctionBody) : Prop :=
  Stmt.ConsistentList body.statements

/-- Nothing has been found about the statements of the body yet. -/
def IsNew (body : FunctionBody) : Prop :=
  ∀ s ∈ body.statements, s.IsNew

/-- A new body is as it was built. -/
theorem IsNew.asBuilt_eq {body : FunctionBody} (h : body.IsNew) : body.asBuilt = body := by
  rw [asBuilt, Stmt.asBuiltList_eq_map, List.map_congr_left h, List.map_id']

theorem IsNew.consistent {body : FunctionBody} (h : body.IsNew) : body.Consistent :=
  (Stmt.consistentList_iff _).mpr fun s hs => (h s hs).consistent

/-- A consistent body is analyzed as it would be as built. -/
theorem analyze_asBuilt {body : FunctionBody} (h : body.Consistent) (classes : Registry) :
    (body.asBuilt.analyze classes).map Stmt.asBuiltList
      = (body.analyze classes).map Stmt.asBuiltList :=
  Stmt.analyzeList_asBuiltList body.statements h _

end FunctionBody

/-- What a run tells: the events, and the report or the fault. -/
def Run.told {α : Type} (run : Run α) : List Event × Except Fault Report :=
  (run.events, run.result)

namespace Analyzer

variable (analyzer : Analyzer) (report : Report)

/-- A run leaves of a body what was built. -/
theorem asBuilt_analyzeInto (body : FunctionBody) :
    (analyzer.analyzeInto report body).bodies.asBuilt = body.asBuilt := by
  have same : Stmt.asBuiltList (body.analyze analyzer.classes).node
      = Stmt.asBuiltList body.statements := Stmt.asBuiltList_analyzeList ..
  rw [analyzeInto]
  split <;> simp [FunctionBody.asBuilt, same]

/-- What a run finds out of a consistent body is consistent. -/
theorem consistent_analyzeInto {body : FunctionBody} (h : body.Consistent) :
    (analyzer.analyzeInto report body).bodies.Consistent := by
  have kept : Stmt.ConsistentList (body.analyze analyzer.classes).node :=
    Stmt.consistentList_analyzeList _ h _
  rw [analyzeInto]
  split <;> exact kept

/-- What is told before an analysis does not depend on earlier analyses. -/
theorem eventsBefore_asBuilt (body : FunctionBody) :
    analyzer.eventsBefore body.asBuilt = analyzer.eventsBefore body := by
  simp [eventsBefore, FunctionBody.asBuilt, Stmt.asBuiltList_eq_map]

/-- What is told after it shows trees, which are the same for the nodes as built. -/
theorem eventsAfter_map_asBuiltList (body : FunctionBody) (outcome : Outcome (List Stmt)) :
    analyzer.eventsAfter body (outcome.map Stmt.asBuiltList)
      = analyzer.eventsAfter body outcome := by
  simp [eventsAfter, Outcome.map, Stmt.formOfList]

theorem eventsAfter_asBuilt {body : FunctionBody} (h : body.Consistent) :
    analyzer.eventsAfter body.asBuilt (body.asBuilt.analyze analyzer.classes)
      = analyzer.eventsAfter body (body.analyze analyzer.classes) :=
  calc analyzer.eventsAfter body.asBuilt (body.asBuilt.analyze analyzer.classes)
    _ = analyzer.eventsAfter body
          ((body.asBuilt.analyze analyzer.classes).map Stmt.asBuiltList) :=
      (eventsAfter_map_asBuiltList analyzer body _).symm
    _ = analyzer.eventsAfter body ((body.analyze analyzer.classes).map Stmt.asBuiltList) := by
      rw [FunctionBody.analyze_asBuilt h]
    _ = analyzer.eventsAfter body (body.analyze analyzer.classes) :=
      eventsAfter_map_asBuiltList ..

/-- All that is told of a consistent body is told of it as built. -/
theorem told_analyzeInto_asBuilt {body : FunctionBody} (h : body.Consistent) :
    (analyzer.analyzeInto report body.asBuilt).told = (analyzer.analyzeInto report body).told := by
  obtain ⟨sameCtx, sameFault⟩ :=
    Outcome.agree_of_map_eq_map (FunctionBody.analyze_asBuilt h analyzer.classes)
  rw [analyzeInto, analyzeInto, eventsBefore_asBuilt, eventsAfter_asBuilt analyzer h, sameCtx,
    sameFault]
  split <;> rfl

/-- A run over several bodies leaves of each what was built, also of those behind a fault. -/
theorem map_asBuilt_analyzeAllInto (bodies : List FunctionBody) :
    (analyzer.analyzeAllInto report bodies).bodies.map FunctionBody.asBuilt
      = bodies.map FunctionBody.asBuilt := by
  induction bodies generalizing report with
  | nil => rfl
  | cons body rest ih =>
    rw [analyzeAllInto]
    dsimp only
    split
    · rw [List.map_cons, asBuilt_analyzeInto, List.map_cons]
    · rw [List.map_cons, asBuilt_analyzeInto, ih, List.map_cons]

/-- It leaves consistent bodies consistent. -/
theorem consistent_analyzeAllInto {bodies : List FunctionBody}
    (h : ∀ body ∈ bodies, body.Consistent) :
    ∀ body ∈ (analyzer.analyzeAllInto report bodies).bodies, body.Consistent := by
  induction bodies generalizing report with
  | nil => exact h
  | cons body rest ih =>
    rw [List.forall_mem_cons] at h
    rw [analyzeAllInto]
    dsimp only
    split
    · exact List.forall_mem_cons.mpr ⟨consistent_analyzeInto analyzer report h.1, h.2⟩
    · exact List.forall_mem_cons.mpr ⟨consistent_analyzeInto analyzer report h.1, ih _ h.2⟩

/-- All that is told in it is what is told of the bodies as built. -/
theorem told_analyzeAllInto_asBuilt {bodies : List FunctionBody}
    (h : ∀ body ∈ bodies, body.Consistent) :
    (analyzer.analyzeAllInto report (bodies.map FunctionBody.asBuilt)).told
      = (analyzer.analyzeAllInto report bodies).told := by
  induction bodies generalizing report with
  | nil => rfl
  | cons body rest ih =>
    rw [List.forall_mem_cons] at h
    have first := told_analyzeInto_asBuilt analyzer report h.1
    have sameEvents := congrArg Prod.fst first
    have sameResult := congrArg Prod.snd first
    dsimp only [Run.told] at sameEvents sameResult
    rw [List.map_cons, analyzeAllInto, analyzeAllInto]
    dsimp only
    rw [sameEvents, sameResult]
    split
    · rfl
    case _ report' _ =>
      have others := ih report' h.2
      exact congrArg (fun others => (_ ++ others.1, others.2)) others

end Analyzer

/-! ## Requests -/

/-- An analysis of bodies of a unit: of one of them, or of several in a row. -/
inductive Request
  | single (analyzer : Analyzer) (position : Nat)
  | several (analyzer : Analyzer) (start count : Nat)
deriving Repr, Inhabited

namespace Request

/-- Analyzes the bodies that are asked for, as far as there are such bodies, and puts them back in
their places. -/
def perform : Request → List FunctionBody → Run (List FunctionBody)
  | single analyzer position, bodies =>
    match bodies[position]? with
    | some body =>
      let run := analyzer.analyzeBody body
      ⟨bodies.set position run.bodies, run.events, run.result⟩
    | none => ⟨bodies, [], .ok .empty⟩
  | several analyzer start count, bodies =>
    let run := analyzer.analyzeUnit ((bodies.drop start).take count)
    ⟨bodies.take start ++ run.bodies ++ bodies.drop (start + count), run.events, run.result⟩

/-- Performs requests one after the other; each finds the bodies as the ones before it left them. -/
def performAll : List Request → List FunctionBody → List (Run (List FunctionBody))
  | [], _ => []
  | request :: rest, bodies =>
    request.perform bodies :: performAll rest (request.perform bodies).bodies

theorem map_asBuilt_perform (request : Request) (bodies : List FunctionBody) :
    (request.perform bodies).bodies.map FunctionBody.asBuilt = bodies.map FunctionBody.asBuilt := by
  cases request with
  | single analyzer position =>
    rw [perform]
    split
    case _ body found =>
      obtain ⟨inside, rfl⟩ := List.getElem?_eq_some_iff.mp found
      rw [List.map_set, Analyzer.analyzeBody, Analyzer.asBuilt_analyzeInto, ← List.map_set,
        List.set_getElem_self]
    case _ => rfl
  | several analyzer start count =>
    rw [perform, Analyzer.analyzeUnit, List.map_append, List.map_append,
      Analyzer.map_asBuilt_analyzeAllInto, ← List.map_append, ← List.map_append, ← List.drop_drop,
      List.append_assoc, List.take_append_drop, List.take_append_drop]

/-- It leaves consistent bodies consistent. -/
theorem consistent_perform (request : Request) {bodies : List FunctionBody}
    (h : ∀ body ∈ bodies, body.Consistent) :
    ∀ body ∈ (request.perform bodies).bodies, body.Consistent := by
  cases request with
  | single analyzer position =>
    rw [perform]
    split
    case _ body found =>
      intro body' mem
      rcases List.mem_or_eq_of_mem_set mem with mem | rfl
      · exact h body' mem
      · exact Analyzer.consistent_analyzeInto _ _ (h body (List.mem_of_getElem? found))
    case _ => exact h
  | several analyzer start count =>
    have asked : ∀ body ∈ (bodies.drop start).take count, body.Consistent :=
      fun body mem => h body (List.mem_of_mem_drop (List.mem_of_mem_take mem))
    intro body mem
    rcases List.mem_append.mp mem with mem | mem
    · rcases List.mem_append.mp mem with mem | mem
      · exact h body (List.mem_of_mem_take mem)
      · exact Analyzer.consistent_analyzeAllInto analyzer .empty asked body mem
    · exact h body (List.mem_of_mem_drop mem)

/-- What a request tells of consistent bodies it tells of them as built. -/
theorem told_perform_asBuilt (request : Request) {bodies : List FunctionBody}
    (h : ∀ body ∈ bodies, body.Consistent) :
    (request.perform (bodies.map FunctionBody.asBuilt)).told = (request.perform bodies).told := by
  cases request with
  | single analyzer position =>
    rw [perform, perform, List.getElem?_map]
    cases found : bodies[position]? with
    | none => rfl
    | some body =>
      exact Analyzer.told_analyzeInto_asBuilt analyzer .empty (h body (List.mem_of_getElem? found))
  | several analyzer start count =>
    have asked : ∀ body ∈ (bodies.drop start).take count, body.Consistent :=
      fun body mem => h body (List.mem_of_mem_drop (List.mem_of_mem_take mem))
    have asBuilt : ((bodies.map FunctionBody.asBuilt).drop start).take count
        = ((bodies.drop start).take count).map FunctionBody.asBuilt := by
      rw [List.map_take, List.map_drop]
    rw [perform, perform, asBuilt]
    exact Analyzer.told_analyzeAllInto_asBuilt analyzer .empty asked

/-- What a request tells does not depend on the requests before it. -/
theorem told_performAll (requests : List Request) {bodies : List FunctionBody}
    (h : ∀ body ∈ bodies, body.Consistent) :
    (performAll requests bodies).map Run.told
      = requests.map fun request => (request.perform (bodies.map FunctionBody.asBuilt)).told := by
  induction requests generalizing bodies with
  | nil => rfl
  | cons request rest ih =>
    rw [performAll, List.map_cons, List.map_cons, ih (consistent_perform request h),
      told_perform_asBuilt request h, map_asBuilt_perform]

end Request

/-- **Analyses are independent of those before them.**  After analyses in whatever contexts, the
analysis of a new statement comes to the same end and leaves the same context; and each request for
analyses of new bodies tells the same as it tells of the new bodies, whatever requests there were
before. -/
theorem FunctionBody.analyses_independent :
    (∀ s : Stmt, s.IsNew → ∀ (history : List Context) (ctx : Context),
      ((s.reanalyzed history).analyze ctx).fault = (s.analyze ctx).fault ∧
      ((s.reanalyzed history).analyze ctx).ctx = (s.analyze ctx).ctx) ∧
    ∀ bodies : List FunctionBody, (∀ body ∈ bodies, body.IsNew) → ∀ requests : List Request,
      (Request.performAll requests bodies).map Run.told
        = requests.map fun request => (request.perform bodies).told := by
  refine ⟨fun s h history ctx => ?_, fun bodies h requests => ?_⟩
  · exact (Outcome.agree_of_map_eq_map (Stmt.map_analyze_reanalyzed h history ctx)).symm
  · have built : bodies.map FunctionBody.asBuilt = bodies := by
      rw [List.map_congr_left fun body mem => (h body mem).asBuilt_eq, List.map_id']
    rw [Request.told_performAll requests fun body mem => (h body mem).consistent, built]

/-- A loop over `x` with a case in it that is no switch's: where `x` is unset the analysis finds the
condition wrong, where it is set there is a fault, and neither shows where `x` is not declared. -/
theorem FunctionBody.analyses_independent_of_loop :
    let x : Expr := .read (.synthetic "x") .boolean none
    let loop : Stmt := .breakable (.synthetic "while") none (.whileLoop x)
      [.simple (.caseLabel (.synthetic "case") x)]
    let unset := Context.start default ⟨[("x", .unset)]⟩ default
    let set := Context.start default ⟨[("x", .set)]⟩ default
    let nowhere := Context.start default .empty default
    let bodies : List FunctionBody :=
      [⟨default, ⟨[("x", .set)]⟩, [loop]⟩, ⟨default, .empty, [loop]⟩]
    let requests : List Request := [.single default 0, .several default 1 1, .single default 1]
    loop.IsNew ∧ (loop.analyze unset).ctx.diagnostics ≠ [] ∧
      (loop.analyze set).fault.isSome = true ∧
      ((loop.reanalyzed [unset, set]).analyze nowhere).fault = (loop.analyze nowhere).fault ∧
      ((loop.reanalyzed [unset, set]).analyze nowhere).ctx = (loop.analyze nowhere).ctx ∧
      (∀ body ∈ bodies, body.IsNew) ∧
      (Request.performAll requests bodies).map Run.told
        = requests.map fun request => (request.perform bodies).told := by
  intro x loop unset set nowhere bodies requests
  have new : loop.IsNew := rfl
  have newBodies : ∀ body ∈ bodies, body.IsNew := by
    simp [bodies, FunctionBody.IsNew, new]
  obtain ⟨sameFault, sameCtx⟩ := FunctionBody.analyses_independent.1 loop new [unset, set] nowhere
  exact ⟨new, by decide +kernel, by decide +kernel, sameFault, sameCtx, newBodies,
    FunctionBody.analyses_independent.2 bodies newBodies requests⟩

end BodyCheck
