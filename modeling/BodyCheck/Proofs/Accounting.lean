import BodyCheck.Analyzer
import BodyCheck.Proofs.Jumps
import Mathlib.Algebra.GroupWithZero.Nat

/-!
# Accounting for the bodies of a unit

What the run over a unit tells of each body is what comes of the analysis of that body alone.

## Main definitions

* `FunctionBody.found`, `FunctionBody.fault?`, `FunctionBody.analyzed` — what comes of the analysis
  of a body alone.
* `Settings.kept` — the diagnostics that are kept.
* `Analyzer.Completes` and `Analyzer.StopsAt` — how a run over a unit ends.

## Main statements

* `Report.errors_addAll` — a report keeps diagnostics from the front.
* `FunctionBody.milestones_analyze` — the analysis of a body itself tells nothing of bodies.
* `Analyzer.analyzeUnit_accounts` — a run over a unit completes, with all diagnostics accounted for,
  or stops at the first body with a fault.

## Design notes

The report is filled body by body, so the induction over the bodies has to start from any report;
only `Analyzer.analyzeAllInto_append` is proved by it, and both ways for a run to end follow.
-/

namespace BodyCheck

/-! ## Reports -/

/-- The diagnostics that are kept of those that have been found. -/
def Settings.kept (settings : Settings) (found : List Diagnostic) : List Diagnostic :=
  match settings.limit with
  | none => found
  | some limit => found.take limit

namespace Report

/-- Diagnostics are kept from the front, as many as there is room for. -/
theorem errors_addAll (limit : Option Nat) (report : Report) (diagnostics : List Diagnostic) :
    (report.addAll limit diagnostics).errors = report.errors ++
      match limit with
      | none => diagnostics
      | some limit => diagnostics.take (limit - report.errors.length) := by
  induction diagnostics generalizing report with
  | nil => cases limit <;> simp [addAll]
  | cons diagnostic rest ih =>
    rw [addAll, List.foldl_cons, ← addAll, ih, add]
    cases limit with
    | none => simp [hasRoom]
    | some limit =>
      -- The place that `diagnostic` takes is lost to the diagnostics behind it.
      by_cases room : report.errors.length < limit
      · obtain ⟨left, isLeft⟩ : ∃ left, limit - report.errors.length = left + 1 :=
          ⟨limit - report.errors.length - 1, by omega⟩
        have less : limit - (report.errors.length + 1) = left := by omega
        simp [hasRoom, room, isLeft, less]
      · have full : limit - report.errors.length = 0 := by omega
        simp [hasRoom, room, full]

/-- An empty report keeps what the settings let it keep. -/
theorem errors_addAll_empty (settings : Settings) (diagnostics : List Diagnostic) :
    (empty.addAll settings.limit diagnostics).errors = settings.kept diagnostics := by
  rw [errors_addAll, Settings.kept]
  cases settings.limit <;> rfl

end Report

/-! ## One body -/

/-- Whether the event tells that the analysis of a body begins or has come to its end. -/
def Event.isMilestone : Event → Bool
  | bodyBegun .. | bodyEnded .. => true
  | _ => false

/-- The number of diagnostics that is told at the end of the analysis of a body. -/
def Event.endedWith? : Event → Option Nat
  | bodyEnded _ diagnostics => some diagnostics
  | _ => none

/-- The checks of a statement tell of nothing but labels. -/
theorem Visit.exists_label_of_mem_told {v : Visit} {event : Event} (h : event ∈ v.told) :
    ∃ label found, event = .labelResolved label found := by
  rw [(v.judges rfl).2] at h
  obtain ⟨jump, -, mem⟩ := List.mem_flatMap.mp h
  rw [Jump.told] at mem
  split at mem
  · split at mem
    · cases mem
    · exact ⟨_, _, List.mem_singleton.mp mem⟩
  · cases mem

namespace FunctionBody

variable (body : FunctionBody) (classes : Registry)

/-- The diagnostics of the body alone. -/
def found : List Diagnostic :=
  (body.analyze classes).ctx.diagnostics

/-- The fault that the analysis of the body ends in, if it does. -/
def fault? : Option Fault :=
  (body.analyze classes).fault

/-- The body behind its analysis. -/
def analyzed : FunctionBody :=
  { body with statements := (body.analyze classes).node }

/-- What is told when the analysis of the body begins. -/
def begun : Event :=
  .bodyBegun body.function.name body.function.cls.name body.statements.length

/-- What is told when the analysis of the body has come to its end. -/
def ended : Event :=
  .bodyEnded body.function.name (body.found classes).length

/-- The analysis of a body itself tells only of its blocks, of faults and of labels. -/
theorem isPassage_or_label_of_mem_events {event : Event}
    (h : event ∈ (body.analyze classes).ctx.events) :
    event.isPassage = true ∨ ∃ label found, event = .labelResolved label found := by
  have attributes := Stmt.attributes_visitsOfList 0 body.statements
    (.start body.function body.locals classes)
  cases passage : event.isPassage with
  | true => exact .inl rfl
  | false =>
    have remark : event ∈ (body.analyze classes).ctx.remarks :=
      List.mem_filter.mpr ⟨h, by rw [passage]; rfl⟩
    rw [analyze, attributes.told] at remark
    obtain ⟨v, -, told⟩ := List.mem_flatMap.mp remark
    exact .inr (v.exists_label_of_mem_told told)

theorem milestones_analyze : (body.analyze classes).ctx.events.filter (·.isMilestone) = [] := by
  rw [List.filter_eq_nil_iff]
  intro event mem isMilestone
  rcases body.isPassage_or_label_of_mem_events classes mem with passage | ⟨label, found, rfl⟩
  · cases event <;> simp [Event.isPassage, Event.isMilestone] at passage isMilestone
  · cases isMilestone

end FunctionBody

/-! ## Several bodies -/

namespace Analyzer

variable (analyzer : Analyzer)

/-- All that is told of a body whose analysis comes to its end. -/
def told (body : FunctionBody) : List Event :=
  analyzer.eventsBefore body ++ (body.analyze analyzer.classes).ctx.events
    ++ analyzer.eventsAfter body (body.analyze analyzer.classes)

/-- A body whose analysis comes to its end adds all that was found to the report. -/
theorem analyzeInto_of_end (report : Report) {body : FunctionBody}
    (sound : body.fault? analyzer.classes = none) :
    analyzer.analyzeInto report body = ⟨body.analyzed analyzer.classes, analyzer.told body,
      .ok (report.addAll analyzer.settings.limit (body.found analyzer.classes))⟩ := by
  rw [FunctionBody.fault?] at sound
  rw [analyzeInto, sound]
  rfl

/-- A body with a fault leaves no report, and nothing is told behind its analysis. -/
theorem analyzeInto_of_fault (report : Report) {body : FunctionBody} {fault : Fault}
    (faulty : body.fault? analyzer.classes = some fault) :
    analyzer.analyzeInto report body = ⟨body.analyzed analyzer.classes,
      analyzer.eventsBefore body ++ (body.analyze analyzer.classes).ctx.events, .error fault⟩ := by
  rw [FunctionBody.fault?] at faulty
  rw [analyzeInto, faulty]
  rfl

/-- Bodies without a fault are analyzed one by one, and the run goes on behind them with what they
leave in the report. -/
theorem analyzeAllInto_append (report : Report) {before : List FunctionBody}
    (sound : ∀ body ∈ before, body.fault? analyzer.classes = none) (rest : List FunctionBody) :
    let others := analyzer.analyzeAllInto (report.addAll analyzer.settings.limit
      (before.flatMap (·.found analyzer.classes))) rest
    analyzer.analyzeAllInto report (before ++ rest) =
      ⟨before.map (·.analyzed analyzer.classes) ++ others.bodies,
        before.flatMap analyzer.told ++ others.events, others.result⟩ := by
  induction before generalizing report with
  | nil => rfl
  | cons body before ih =>
    rw [List.forall_mem_cons] at sound
    rw [List.cons_append, analyzeAllInto, analyzer.analyzeInto_of_end report sound.1]
    dsimp only
    rw [ih _ sound.2]
    simp [Report.addAll]

/-- The milestones of bodies whose analyses come to their ends. -/
def milestones (bodies : List FunctionBody) : List Event :=
  if analyzer.settings.verbose then
    bodies.flatMap fun body => [body.begun, body.ended analyzer.classes]
  else []

/-- The milestones of one body are its beginning and its end, if the settings ask for them. -/
theorem filter_told (body : FunctionBody) :
    (analyzer.told body).filter (·.isMilestone) = analyzer.milestones [body] := by
  rw [told, List.filter_append, List.filter_append, body.milestones_analyze]
  cases verbose : analyzer.settings.verbose <;> cases trees : analyzer.settings.showTrees <;>
    simp [eventsBefore, eventsAfter, milestones, verbose, trees, Event.isMilestone,
      FunctionBody.begun, FunctionBody.ended, FunctionBody.found]

theorem filter_flatMap_told (bodies : List FunctionBody) :
    (bodies.flatMap analyzer.told).filter (·.isMilestone) = analyzer.milestones bodies := by
  rw [List.filter_flatMap]
  cases verbose : analyzer.settings.verbose <;> simp [filter_told, milestones, verbose]

/-- How a run over bodies ends if none of them has a fault. -/
structure Completes (bodies : List FunctionBody) (run : Run (List FunctionBody))
    (report : Report) : Prop where
  sound : ∀ body ∈ bodies, body.fault? analyzer.classes = none
  analyzed : run.bodies = bodies.map (·.analyzed analyzer.classes)
  result : run.result = .ok report
  /-- The first diagnostics of all bodies are kept, and the others are counted. -/
  errors : report.errors = analyzer.settings.kept (bodies.flatMap (·.found analyzer.classes))
  total : report.total = (bodies.flatMap (·.found analyzer.classes)).length
  hasErrors : report.hasErrors = true ↔ bodies.flatMap (·.found analyzer.classes) ≠ []
  milestones : run.events.filter (·.isMilestone) = analyzer.milestones bodies
  counts : analyzer.settings.verbose = true →
    (run.events.filterMap Event.endedWith?).sum = report.total

/-- How a run over bodies ends at one with a fault: the bodies before it are analyzed, the others
behind it are not touched, and there is no report. -/
structure StopsAt (before : List FunctionBody) (faulty : FunctionBody)
    (behind : List FunctionBody) (run : Run (List FunctionBody)) (fault : Fault) : Prop where
  sound : ∀ body ∈ before, body.fault? analyzer.classes = none
  isFault : faulty.fault? analyzer.classes = some fault
  analyzed : run.bodies = before.map (·.analyzed analyzer.classes)
    ++ faulty.analyzed analyzer.classes :: behind
  result : run.result = .error fault
  milestones : run.events.filter (·.isMilestone)
    = analyzer.milestones before ++ if analyzer.settings.verbose then [faulty.begun] else []

/-- The counts that are told at the ends of bodies are among the milestones. -/
theorem filterMap_endedWith?_filter (events : List Event) :
    (events.filter (·.isMilestone)).filterMap Event.endedWith?
      = events.filterMap Event.endedWith? := by
  rw [List.filterMap_filter]
  congr 1
  funext event
  cases event <;> rfl

/-- A run over bodies without a fault completes. -/
theorem completes {bodies : List FunctionBody}
    (sound : ∀ body ∈ bodies, body.fault? analyzer.classes = none) :
    ∃ report, analyzer.Completes bodies (analyzer.analyzeUnit bodies) report := by
  -- There is nothing behind the bodies, so the report is the one that they fill.
  have run := analyzer.analyzeAllInto_append .empty sound []
  rw [List.append_nil, ← analyzeUnit] at run
  set found := bodies.flatMap (·.found analyzer.classes)
  set report := Report.empty.addAll analyzer.settings.limit found
  have total : report.total = found.length := by
    rw [Report.total_addAll]
    exact Nat.zero_add _
  have milestones : (analyzer.analyzeUnit bodies).events.filter (·.isMilestone)
      = analyzer.milestones bodies := by
    rw [run, ← filter_flatMap_told]
    simp [analyzeAllInto]
  refine ⟨report, sound, ?_, ?_, Report.errors_addAll_empty .., total, ?_, milestones, ?_⟩
  · simp [run, analyzeAllInto]
  · simp [run, analyzeAllInto, report]
  · rw [Report.hasErrors_iff, total, Ne, List.length_eq_zero_iff]
  · intro verbose
    rw [← filterMap_endedWith?_filter, milestones, Analyzer.milestones, if_pos verbose,
      List.filterMap_flatMap, total, List.length_flatMap]
    -- Of the two milestones of a body only the second has a count.
    exact congrArg List.sum List.map_eq_flatMap.symm

/-- A run stops at the first body with a fault. -/
theorem stopsAt {before : List FunctionBody} {faulty : FunctionBody} {fault : Fault}
    (sound : ∀ body ∈ before, body.fault? analyzer.classes = none)
    (isFault : faulty.fault? analyzer.classes = some fault) (behind : List FunctionBody) :
    analyzer.StopsAt before faulty behind (analyzer.analyzeUnit (before ++ faulty :: behind))
      fault := by
  have run := analyzer.analyzeAllInto_append .empty sound (faulty :: behind)
  rw [← analyzeUnit, analyzeAllInto, analyzer.analyzeInto_of_fault _ isFault] at run
  dsimp only at run
  refine ⟨sound, isFault, by rw [run], by rw [run], ?_⟩
  rw [run, List.filter_append, filter_flatMap_told, List.filter_append,
    faulty.milestones_analyze, List.append_nil]
  cases verbose : analyzer.settings.verbose <;>
    simp [eventsBefore, verbose, Event.isMilestone, FunctionBody.begun]

/-- A run depends on the settings only in what it tells and in how many diagnostics it keeps. -/
theorem analyzeAllInto_of_same_limit (other : Analyzer)
    (sameClasses : other.classes = analyzer.classes)
    (sameLimit : other.settings.limit = analyzer.settings.limit) (report : Report)
    (bodies : List FunctionBody) :
    (other.analyzeAllInto report bodies).result = (analyzer.analyzeAllInto report bodies).result ∧
      (other.analyzeAllInto report bodies).bodies
        = (analyzer.analyzeAllInto report bodies).bodies := by
  induction bodies generalizing report with
  | nil => exact ⟨rfl, rfl⟩
  | cons body rest ih =>
    rw [analyzeAllInto, analyzeAllInto]
    cases isFault : body.fault? analyzer.classes with
    | some fault =>
      rw [analyzer.analyzeInto_of_fault report isFault,
        other.analyzeInto_of_fault report (sameClasses ▸ isFault), sameClasses]
      exact ⟨rfl, rfl⟩
    | none =>
      rw [analyzer.analyzeInto_of_end report isFault,
        other.analyzeInto_of_end report (sameClasses ▸ isFault), sameClasses, sameLimit]
      dsimp only
      obtain ⟨sameResult, sameBodies⟩ := ih
        (report.addAll analyzer.settings.limit (body.found analyzer.classes))
      exact ⟨sameResult, congrArg _ sameBodies⟩

/-- **Accounting.**  What comes of a body alone is what comes of the analysis of its statements in a
new context for its function, in which nothing has been found yet.  A run over a unit completes, with
all that comes of all bodies alone accounted for, or it stops at the first body with a fault.  The
run over one body is the case of a unit with one body.  What is told, other than diagnostics, makes
no difference to the result and the bodies. -/
theorem analyzeUnit_accounts (bodies : List FunctionBody) :
    (∀ body : FunctionBody,
      let alone := Stmt.analyzeList body.statements
        (.start body.function body.locals analyzer.classes)
      body.found analyzer.classes = alone.ctx.diagnostics ∧
        body.fault? analyzer.classes = alone.fault ∧
        body.analyzed analyzer.classes = { body with statements := alone.node }) ∧
    ((∃ report, analyzer.Completes bodies (analyzer.analyzeUnit bodies) report) ∨
      ∃ before faulty behind fault, bodies = before ++ faulty :: behind ∧
        analyzer.StopsAt before faulty behind (analyzer.analyzeUnit bodies) fault) ∧
    (∀ body, (analyzer.analyzeUnit [body]).result = (analyzer.analyzeBody body).result ∧
      (analyzer.analyzeUnit [body]).bodies = [(analyzer.analyzeBody body).bodies] ∧
      (analyzer.analyzeUnit [body]).events = (analyzer.analyzeBody body).events) ∧
    ∀ verbose showTrees : Bool,
      let other : Analyzer := { analyzer with
        settings := { analyzer.settings with verbose, showTrees } }
      (other.analyzeUnit bodies).result = (analyzer.analyzeUnit bodies).result ∧
        (other.analyzeUnit bodies).bodies = (analyzer.analyzeUnit bodies).bodies := by
  refine ⟨fun body => ⟨rfl, rfl, rfl⟩, ?_, fun body => ?_, fun verbose showTrees => ?_⟩
  · cases first : bodies.findSome? (·.fault? analyzer.classes) with
    | none => exact .inl (analyzer.completes (List.findSome?_eq_none_iff.mp first))
    | some fault =>
      obtain ⟨before, faulty, behind, rfl, isFault, sound⟩ := List.findSome?_eq_some_iff.mp first
      exact .inr ⟨before, faulty, behind, fault, rfl, analyzer.stopsAt sound isFault behind⟩
  · rw [analyzeUnit, analyzeAllInto, ← analyzeBody]
    dsimp only
    split
    case _ fault isFault => exact ⟨isFault.symm, rfl, rfl⟩
    case _ report isReport => exact ⟨isReport.symm, rfl, List.append_nil _⟩
  · intro other
    exact analyzer.analyzeAllInto_of_same_limit other rfl rfl .empty bodies

end Analyzer

end BodyCheck
