import BodyCheck.Report
import BodyCheck.Stmt.Analysis
import BodyCheck.Stmt.Form

/-!
# Analysis of function bodies

Analyzes the functions of a unit one after the other, each in a context of its own, and collects
the diagnostics of all of them in one report.

## Main definitions

* `FunctionBody` — a function with its locals and its statements.
* `Settings` — what is told and how many diagnostics are kept.
* `Run` — what comes of analyzing bodies.
* `Analyzer` — the classes of a unit and the settings.
* `Analyzer.analyzeBody` and `Analyzer.analyzeUnit`.

## Design notes

Diagnostics never stop the analysis of a unit; a fault does, and then there is no report.  The
bodies behind the one at fault stay as they are.
-/

namespace BodyCheck

/-- A function body that waits for its analysis. -/
structure FunctionBody where
  function : FunctionDef
  /-- The parameters and locals, with what is known about them at the entry. -/
  locals : Locals
  statements : List Stmt
deriving Repr, Inhabited

/-- What is told and how many diagnostics are kept. -/
structure Settings where
  /-- Tell when the analysis of a function begins and ends. -/
  verbose : Bool
  /-- Tell the form of each body after its analysis. -/
  showTrees : Bool
  /-- Keep no more than this many diagnostics. -/
  limit : Option Nat
deriving DecidableEq, Repr, Inhabited

/-- Tell nothing in particular and keep everything. -/
def Settings.standard : Settings :=
  ⟨false, false, none⟩

/-- What comes of analyzing bodies: the bodies with what was found about them, the events on the
way, and a report unless there was a fault. -/
structure Run (α : Type) where
  bodies : α
  events : List Event
  result : Except Fault Report

/-- The classes that a unit sees and the settings of its analysis. -/
structure Analyzer where
  settings : Settings
  classes : Registry
deriving Repr, Inhabited

namespace FunctionBody

/-- Analyzes the statements of a body in a context of its own. -/
def analyze (body : FunctionBody) (classes : Registry) : Outcome (List Stmt) :=
  Stmt.analyzeList body.statements (.start body.function body.locals classes)

end FunctionBody

namespace Analyzer

/-- What is told before the analysis of a body. -/
def eventsBefore (analyzer : Analyzer) (body : FunctionBody) : List Event :=
  if analyzer.settings.verbose then
    [.bodyBegun body.function.name body.function.cls.name body.statements.length]
  else []

/-- What is told after an analysis that came to its end. -/
def eventsAfter (analyzer : Analyzer) (body : FunctionBody) (outcome : Outcome (List Stmt)) :
    List Event :=
  (if analyzer.settings.showTrees then
    [.bodyShown body.function.name (Stmt.formOfList outcome.node)]
  else [])
    ++ if analyzer.settings.verbose then
      [.bodyEnded body.function.name outcome.ctx.diagnostics.length]
    else []

/-- Analyzes a body and adds its diagnostics to a report. -/
def analyzeInto (analyzer : Analyzer) (report : Report) (body : FunctionBody) :
    Run FunctionBody :=
  let outcome := body.analyze analyzer.classes
  let analyzed := { body with statements := outcome.node }
  let events := analyzer.eventsBefore body ++ outcome.ctx.events
  match outcome.fault with
  | some fault => ⟨analyzed, events, .error fault⟩
  | none =>
    ⟨analyzed, events ++ analyzer.eventsAfter body outcome,
      .ok (report.addAll analyzer.settings.limit outcome.ctx.diagnostics)⟩

/-- Analyzes bodies in order up to the first fault and adds their diagnostics to a report. -/
def analyzeAllInto (analyzer : Analyzer) (report : Report) :
    List FunctionBody → Run (List FunctionBody)
  | [] => ⟨[], [], .ok report⟩
  | body :: rest =>
    let first := analyzer.analyzeInto report body
    match first.result with
    | .error fault => ⟨first.bodies :: rest, first.events, .error fault⟩
    | .ok report =>
      let others := analyzer.analyzeAllInto report rest
      ⟨first.bodies :: others.bodies, first.events ++ others.events, others.result⟩

/-- Analyzes one function body. -/
def analyzeBody (analyzer : Analyzer) (body : FunctionBody) : Run FunctionBody :=
  analyzer.analyzeInto .empty body

/-- Analyzes all function bodies of a unit. -/
def analyzeUnit (analyzer : Analyzer) (bodies : List FunctionBody) : Run (List FunctionBody) :=
  analyzer.analyzeAllInto .empty bodies

end Analyzer

end BodyCheck
