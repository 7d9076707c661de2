import BodyCheck.Diagnostic

/-!
# Reports

The diagnostics of a unit, of which no more may be wanted than a certain number.

## Main definitions

* `Report` — the diagnostics that are kept, and how many more there were.
* `Report.add` and `Report.addAll` — take diagnostics in under a limit.

## Design notes

The limit holds for the whole report, so a report that has been filled up by one function only
counts what comes from the next.
-/

namespace BodyCheck

/-- The diagnostics that are kept, and the number of those beyond the limit. -/
structure Report where
  errors : List Diagnostic
  suppressed : Nat
deriving DecidableEq, Repr, Inhabited

namespace Report

/-- The report of nothing. -/
def empty : Report :=
  ⟨[], 0⟩

/-- The number of diagnostics that went into the report. -/
def total (report : Report) : Nat :=
  report.errors.length + report.suppressed

/-- Whether any diagnostic went into the report, kept or not. -/
def hasErrors (report : Report) : Bool :=
  report.errors != [] || report.suppressed != 0

/-- Whether one more diagnostic may be kept under a limit, if there is one. -/
def hasRoom (report : Report) : Option Nat → Bool
  | none => true
  | some limit => report.errors.length < limit

/-- Takes a diagnostic in: it is kept if there is room for it and counted otherwise. -/
def add (limit : Option Nat) (report : Report) (diagnostic : Diagnostic) : Report :=
  if report.hasRoom limit then { report with errors := report.errors ++ [diagnostic] }
  else { report with suppressed := report.suppressed + 1 }

/-- Takes several diagnostics in, in order. -/
def addAll (limit : Option Nat) (report : Report) (diagnostics : List Diagnostic) : Report :=
  diagnostics.foldl (add limit) report

@[simp] theorem total_add (limit : Option Nat) (report : Report) (diagnostic : Diagnostic) :
    (report.add limit diagnostic).total = report.total + 1 := by
  unfold add total
  split <;> simp <;> omega

/-- All diagnostics are counted, whether they are kept or not. -/
theorem total_addAll (limit : Option Nat) (report : Report) (diagnostics : List Diagnostic) :
    (report.addAll limit diagnostics).total = report.total + diagnostics.length := by
  induction diagnostics generalizing report with
  | nil => rfl
  | cons diagnostic rest ih =>
    rw [addAll, List.foldl_cons, ← addAll, ih, total_add, List.length_cons]
    omega

/-- A report has errors exactly if anything went into it. -/
theorem hasErrors_iff {report : Report} : report.hasErrors = true ↔ report.total ≠ 0 := by
  obtain ⟨errors, suppressed⟩ := report
  cases errors <;> simp [hasErrors, total]

end Report

end BodyCheck
