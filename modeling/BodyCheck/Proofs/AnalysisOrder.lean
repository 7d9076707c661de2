import BodyCheck.Analyzer
import BodyCheck.Proofs.Execution
import BodyCheck.Proofs.Visibility

/-!
# Order of analysis and order of execution

The parts of some statements run in another order than they are analyzed in.  The condition of a
do-while loop and the step of a for loop are analyzed before the body and run behind it, and a
section of a switch is analyzed behind the sections above it, also if control never comes through
them.  There an assignment counts as soon as the analysis has come to it.

## Main definitions

* `FunctionBody.ReadsUnassigned` — nothing is found wrong with a body, and yet it has a run that
  reads a local that has not been assigned.
* `Header.CountsJust` — which uses count in the body of a loop or switch and behind it.

## Main statements

* `FunctionBody.readsUnassigned_out_of_order` — definite assignment fails in all three shapes.
* `Stmt.counts_in_order_of_analysis` — just which assignments count there.

## Design notes

Bodies without these shapes have definite assignment; see `FunctionBody.assigned_before_read`.
-/

namespace BodyCheck

/-- Nothing is found wrong with the body, and yet it has a run that reads a local that is neither set
at the entry nor assigned before on the run. -/
def FunctionBody.ReadsUnassigned (body : FunctionBody) (classes : Registry) : Prop :=
  (body.analyze classes).fault = none ∧ (body.analyze classes).ctx.diagnostics = [] ∧
    ∃ before name after ending,
      Stmt.runsOfList body.statements (before ++ .reads name :: after) ending ∧
        body.locals.status? name ≠ some .set ∧ .assigns name ∉ before

/-- In each of `do { x; } while (x = 1);`, `for (;; x = 1) { x; break; }`, `for (; 1; x = 1) {} x;`
and `switch (1) { case 1: x = 1; break; case 2: x; }` the read of `x` comes first on some run, and
nothing is found wrong with it. -/
theorem FunctionBody.readsUnassigned_out_of_order :
    let read : Stmt := .simple (.expression (.read (.synthetic "x") .int none))
    let one : Expr := .value (.synthetic "1") (.typed .int) none
    let assign : Expr := .assign (.synthetic "x") one none
    let leave : Stmt := .simple (.jump .breaks (.synthetic "break") none)
    let body (statements : List Stmt) : FunctionBody :=
      ⟨default, ⟨[("x", .unset)]⟩, statements⟩
    (body [.breakable (.synthetic "do") none (.doWhile assign) [read]]).ReadsUnassigned default ∧
    (body [.breakable (.synthetic "for") none (.forLoop none none (some assign))
      [read, leave]]).ReadsUnassigned default ∧
    (body [.breakable (.synthetic "for") none (.forLoop none (some one) (some assign)) [],
      read]).ReadsUnassigned default ∧
    (body [.breakable (.synthetic "switch") none (.switch one)
      [.simple (.caseLabel (.synthetic "case") one), .simple (.expression assign), leave,
        .simple (.caseLabel (.synthetic "case") one), read]]).ReadsUnassigned default := by
  intro read one assign leave body
  have unset : (body []).locals.status? "x" ≠ some .set := by decide +kernel
  have readRun : read.runs [.reads "x"] .normal := .inl ⟨rfl, rfl⟩
  have listRun : Stmt.runsOfList [read] [.reads "x"] .normal :=
    .inl ⟨_, _, readRun, ⟨rfl, .inl rfl⟩, rfl⟩
  have nothing : Behavior.stops .normal [] .normal := ⟨rfl, .inl rfl⟩
  refine ⟨⟨by decide +kernel, by decide +kernel, [], "x", [.assigns "x"], .normal, ?_, unset, nofun⟩,
    ⟨by decide +kernel, by decide +kernel, [], "x", [], .normal, ?_, unset, nofun⟩,
    ⟨by decide +kernel, by decide +kernel, [], "x", [], .normal, ?_, unset, nofun⟩,
    ⟨by decide +kernel, by decide +kernel, [], "x", [], .normal, ?_, unset, nofun⟩⟩
  · -- The condition is tested behind the body for the first time.
    have test : Behavior.straight assign.accesses [.assigns "x"] .normal := .inl ⟨rfl, rfl⟩
    have loopRun : Behavior.once none (Stmt.runsOfList [read])
        (.rounds none (.straight assign.accesses) (Stmt.runsOfList [read]) (.stops .normal))
        ([.reads "x"] ++ [.assigns "x"]) .normal :=
      .inl ⟨_, _, _, listRun, rfl, .tested test, rfl⟩
    exact .inl ⟨_, _, loopRun, nothing, rfl⟩
  · -- The body leaves the loop before its step.
    have bodyRun : Stmt.runsOfList [read, leave] [.reads "x"] (.jumped .breaks none) :=
      .inl ⟨_, _, readRun, .inr ⟨⟨rfl, .inl rfl⟩, nofun⟩, rfl⟩
    have loopRun : Behavior.rounds none (Expr.runsOptional none) (Stmt.runsOfList [read, leave])
        (Expr.runsOptional (some assign)) ([] ++ [.reads "x"]) .normal :=
      .left nothing bodyRun rfl
    exact .inl ⟨_, [], .inl ⟨[], _, nothing, loopRun, rfl⟩, nothing, rfl⟩
  · -- There is no round at all.
    have loopRun : Behavior.rounds none (Expr.runsOptional (some one)) (Stmt.runsOfList [])
        (Expr.runsOptional (some assign)) [] .normal :=
      .tested (.inl ⟨rfl, rfl⟩)
    exact .inl ⟨[], _, .inl ⟨[], _, nothing, loopRun, rfl⟩, listRun, rfl⟩
  · -- Only the second case fits.
    have evaluated : Behavior.straight one.accesses [] .normal := .inl ⟨rfl, rfl⟩
    have secondCase (otherwise : Behavior) :
        Stmt.runsOfSections [.simple (.caseLabel (.synthetic "case") one), read] otherwise
          [.reads "x"] .normal :=
      .inl ⟨[], _, evaluated, .inl listRun, rfl⟩
    exact .inl ⟨_, [], .inl ⟨[], _, evaluated,
      ⟨_, .inl ⟨[], _, evaluated, .inr (secondCase _), rfl⟩, rfl⟩, rfl⟩, nothing, rfl⟩

/-! ## What counts in a body and behind it -/

namespace Header

/-- The context in which the analysis of the body behind a header begins. -/
def bodyContext (keyword : Token) (label : Option Token) (header : Header) (ctx : Context) :
    Context :=
  (header.analyze keyword ctx).ctx.enter (.breakable (header.analyze keyword ctx).kind label)

/-- The uses of a loop or switch are those of its header and, in that context, those of its body. -/
theorem uses_breakable (i : Nat) (keyword : Token) (label : Option Token) (header : Header)
    (body : List Stmt) (ctx : Context) :
    (Stmt.breakable keyword label header body).uses i ctx
      = header.uses ctx ++
        (Stmt.usesOfList 0 body (header.bodyContext keyword label ctx)).map
          (Use.inside (i, .body)) := by
  rw [Stmt.uses]
  rfl

/-- Besides what is set before, just the given uses count in the whole body and behind it, and in the
body those that are seen there.  The uses are those that the analysis of the whole loop or switch
comes to: what it finds about locals it finds at one of them. -/
structure CountsJust (keyword : Token) (label : Option Token) (header : Header) (body : List Stmt)
    (ctx : Context) (uses : List Use) : Prop where
  /-- A read in the body is accepted, and nothing is found at it, just if its variable is set before,
  or assigned at one of the given uses, or at an earlier use in the body that is seen from the read.
  What is found at a read is reported by the analysis of the whole statement. -/
  inside : ∀ {past u later}, Stmt.usesOfList 0 body (header.bodyContext keyword label ctx)
      = past ++ u :: later →
    ∀ {token declared known}, u.expr = .read token declared known →
      let visible := (ctx.locals.status? token.value = some .set ∨ SeenFrom uses [] token.value) ∨
        SeenFrom past u.place token.value
      (u.Accepted ↔ visible) ∧ (u.finding? = none ↔ visible) ∧
      ∀ found ∈ u.finding?,
        found ∈ ((Stmt.breakable keyword label header body).analyze ctx).ctx.diagnostics
  /-- The analysis of the statement finds about locals what is found at the given uses and then at
  those in the body, and nothing else. -/
  found : ((Stmt.breakable keyword label header body).analyze ctx).ctx.aboutLocals
    = ctx.aboutLocals
      ++ (uses ++ Stmt.usesOfList 0 body (header.bodyContext keyword label ctx)).filterMap
        Use.finding?
  /-- The given uses are parts of the header, and those in the body stand where their places say. -/
  owned : (∀ u ∈ uses, u.place = [] ∧ u.IsPartOf header.exprs) ∧
    ∀ u ∈ Stmt.usesOfList 0 body (header.bodyContext keyword label ctx), u.Owned body
  /-- Behind the statement just the given uses count. -/
  behind : ∀ name,
    ((Stmt.breakable keyword label header body).analyze ctx).ctx.locals.status? name = some .set ↔
      ctx.locals.status? name = some .set ∨ SeenFrom uses [] name

/-- In every loop and switch all uses in the header count. -/
theorem countsJust_uses (keyword : Token) (label : Option Token) (header : Header)
    (body : List Stmt) (ctx : Context) :
    header.CountsJust keyword label body ctx (header.uses ctx) where
  inside := by
    intro past u later reached token declared known isRead
    have atHeader := (header.tracks_uses keyword ctx).known.set token.value
    have atBody : (header.bodyContext keyword label ctx).locals =
        (header.analyze keyword ctx).ctx.locals := rfl
    have isSet := (Stmt.knownAt_of_uses reached isRead).set token.value
    rw [atBody, atHeader] at isSet
    refine ⟨?_, ?_, ?_⟩
    · rw [Use.accepted_iff isRead, isSet]
    · rw [Use.finding?_eq_none_iff isRead, isSet]
    · -- Seen from the list around the statement, the use is one of the statement.
      have isUse : u.inside (0, .body) ∈ (Stmt.breakable keyword label header body).uses 0 ctx := by
        rw [uses_breakable, reached]
        have inBody : u ∈ past ++ u :: later := List.mem_append_right _ List.mem_cons_self
        exact List.mem_append_right _ (List.mem_map_of_mem inBody)
      intro found isFound
      have tracked := Stmt.tracks_uses 0 (.breakable keyword label header body) ctx
      exact tracked.reported isUse found isFound
  found := by
    have tracked := (Stmt.tracks_uses 0 (.breakable keyword label header body) ctx).found
    rw [uses_breakable, List.filterMap_append, Use.filterMap_finding?_inside] at tracked
    rw [tracked, List.filterMap_append]
  owned :=
    ⟨fun u isUse => ⟨header.allHere_uses ctx u isUse, Header.isPartOf_of_mem_uses isUse⟩,
      Stmt.owned_of_mem_usesOfList body _⟩
  behind := by
    intro name
    rw [Stmt.locals_analyze_of_controls? rfl, ← header.locals_analyze keyword]
    exact (header.tracks_uses keyword ctx).known.set name

end Header

/-- **Order of analysis.**  In the body of a do-while loop and behind the loop just those assignments
count that are made in the condition, besides what was set before the loop; for a for loop, those
made in the start, the condition or the step; for a switch, those made in its subject.  In the body
itself an assignment counts for what comes behind it in the same list or in lists inside that list.
This goes across all sections of a switch, as a break is no use and changes nothing.  A read for
which no assignment counts is reported by the analysis of the loop or switch. -/
theorem Stmt.counts_in_order_of_analysis (keyword : Token) (label : Option Token)
    (body : List Stmt) (ctx : Context) :
    (∀ cond, Header.CountsJust keyword label (.doWhile cond) body ctx (cond.uses ctx)) ∧
    (∀ start cond step,
      let behindStart := (Expr.analyzeOptional start ctx).2
      let behindCond := (Expr.analyzeOptional cond behindStart).2
      Header.CountsJust keyword label (.forLoop start cond step) body ctx
        (Expr.usesOptional start ctx ++ Expr.usesOptional cond behindStart
          ++ Expr.usesOptional step behindCond)) ∧
    ∀ subject, Header.CountsJust keyword label (.switch subject) body ctx (subject.uses ctx) := by
  refine ⟨fun cond => ?_, fun start cond step => ?_, fun subject => ?_⟩
  · exact Header.countsJust_uses keyword label (.doWhile cond) body ctx
  · exact Header.countsJust_uses keyword label (.forLoop start cond step) body ctx
  · exact Header.countsJust_uses keyword label (.switch subject) body ctx

/-- With neither `x` nor `y` set before, `do { x; y; } while (x = 1);` reads `x` as set and has the
read of `y` reported.  In `switch (1) { case 1: x = 1; if (1) { y = 1; } break; case 1: x; y; }` the
assignment to `x` counts behind the break, and that to `y`, which is made in an inner list, does
not. -/
theorem Stmt.counts_in_order_of_analysis_of_condition :
    let read (name : String) : Stmt := .simple (.expression (.read (.synthetic name) .int none))
    let one : Expr := .value (.synthetic "1") (.typed .int) none
    let assign (name : String) : Expr := .assign (.synthetic name) one none
    let section1 : List Stmt := [.simple (.caseLabel (.synthetic "case") one),
      .simple (.expression (assign "x")),
      .ifElse (.synthetic "if") one [.simple (.expression (assign "y"))] [],
      .simple (.jump .breaks (.synthetic "break") none)]
    let section2 : List Stmt := [.simple (.caseLabel (.synthetic "case") one), read "x", read "y"]
    let ctx := Context.start default ⟨[("x", .unset), ("y", .unset)]⟩ default
    let loop : Stmt :=
      .breakable (.synthetic "do") none (.doWhile (assign "x")) [read "x", read "y"]
    let branch : Stmt := .breakable (.synthetic "switch") none (.switch one) (section1 ++ section2)
    let inLoop := usesOfList 0 [read "x", read "y"]
      ((Header.doWhile (assign "x")).bodyContext (.synthetic "do") none ctx)
    let inBranch := usesOfList 0 (section1 ++ section2)
      ((Header.switch one).bodyContext (.synthetic "switch") none ctx)
    let missing : Diagnostic := ⟨.uninitialized "y", .synthetic "y"⟩
    (SeenFrom ((assign "x").uses ctx) [] "x" ∧ inLoop[0].Accepted ∧ ¬ inLoop[1].Accepted ∧
      inLoop[1].finding? = some missing ∧ missing ∈ (loop.analyze ctx).ctx.diagnostics) ∧
    (inBranch[2].Accepted ∧ ¬ inBranch[3].Accepted ∧
      inBranch[3].finding? = some missing ∧ missing ∈ (branch.analyze ctx).ctx.diagnostics) := by
  intro read one assign section1 section2 ctx loop branch inLoop inBranch missing
  have inCond := (counts_in_order_of_analysis (.synthetic "do") none
    [read "x", read "y"] ctx).1 (assign "x")
  have inSubject := (counts_in_order_of_analysis (.synthetic "switch") none
    (section1 ++ section2) ctx).2.2 one
  have assigned : SeenFrom ((assign "x").uses ctx) [] "x" := by decide +kernel
  constructor
  · have isX : inLoop[0].expr = .read (.synthetic "x") .int none := rfl
    have isY : inLoop[1].expr = .read (.synthetic "y") .int none := rfl
    have found : inLoop[1].finding? = some missing := by decide +kernel
    have unset : ¬ (ctx.locals.status? "y" = some .set ∨ SeenFrom ((assign "x").uses ctx) [] "y") := by
      decide +kernel
    have unseen : ¬ SeenFrom (inLoop.take 1) inLoop[1].place "y" := by decide +kernel
    obtain ⟨acceptedX, -, -⟩ := inCond.inside (eq_take_append_cons_drop _) isX
    obtain ⟨acceptedY, -, reportedY⟩ := inCond.inside (eq_take_append_cons_drop _) isY
    refine ⟨assigned, acceptedX.2 (.inl (.inr assigned)), ?_, found, ?_⟩
    · exact mt acceptedY.1 (not_or.2 ⟨unset, unseen⟩)
    · exact reportedY missing found
  · have isX : inBranch[2].expr = .read (.synthetic "x") .int none := rfl
    have isY : inBranch[3].expr = .read (.synthetic "y") .int none := rfl
    have found : inBranch[3].finding? = some missing := by decide +kernel
    have seen : SeenFrom (inBranch.take 2) inBranch[2].place "x" := by decide +kernel
    have unset : ¬ (ctx.locals.status? "y" = some .set ∨ SeenFrom (one.uses ctx) [] "y") := by
      decide +kernel
    have unseen : ¬ SeenFrom (inBranch.take 3) inBranch[3].place "y" := by decide +kernel
    obtain ⟨acceptedX, -, -⟩ := inSubject.inside (eq_take_append_cons_drop _) isX
    obtain ⟨acceptedY, -, reportedY⟩ := inSubject.inside (eq_take_append_cons_drop _) isY
    refine ⟨acceptedX.2 (.inr seen), ?_, found, ?_⟩
    · exact mt acceptedY.1 (not_or.2 ⟨unset, unseen⟩)
    · exact reportedY missing found

end BodyCheck
