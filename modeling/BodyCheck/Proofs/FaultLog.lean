import BodyCheck.Proofs.Faults
import BodyCheck.Proofs.Isolation

/-!
# The log of a fault

An analysis that comes to its end tells of no error.  A fault is told of once for each statement on
its way out, the statement that raises it first, and between two of these events the block of the
list that the fault comes out of is left.

## Main definitions

* `Stmt.enclosing` — the statements around a place in a body.
* `Fault.unwinding` — what is told while a fault makes its way out of statements.
* `Visit.log` — what is told from the visit on at which a fault is raised.
* `Context.Quiet` — a step that tells of no error and comes back to the depth it starts from.
* `Context.Logs` — an analysis that is quiet up to its fault, if it has one, and then tells the log.

## Main statements

* `Stmt.checkOwn_quiet` — the checks of a statement itself are quiet.
* `Stmt.logs_visitsOfList` — the analysis of a list tells the log of its fault.
* `Stmt.faults_logged_along_path` — the errors that an analysis tells of.

## Design notes

That a fault passes through a statement is told only behind all the lists inside the statement.
The induction over the tree stops short of that event: `Context.Logs` says of the lists inside a
statement what there will be once the event has been added.
-/

namespace BodyCheck

/-! ## What is told of a fault -/

namespace Stmt

/-- The statements around the list at a place in a body, the innermost first. -/
def enclosing : Place → List Stmt → List Stmt
  | [], _ => []
  | (i, slot) :: rest, body =>
    match body[i]? with
    | some s => enclosing rest ((s.slot? slot).getD []) ++ [s]
    | none => []

/-- There is a statement for every step on the way to a list. -/
theorem length_enclosing {place : Place} {body list : List Stmt}
    (h : listAt? place body = some list) : (enclosing place body).length = place.length := by
  induction place generalizing body with
  | nil => rfl
  | cons step rest ih =>
    obtain ⟨i, slot⟩ := step
    obtain ⟨inner, isInner, isList⟩ := Option.bind_eq_some_iff.mp h
    obtain ⟨s, isAt, isSlot⟩ := Option.bind_eq_some_iff.mp isInner
    rw [enclosing, isAt]
    show (enclosing rest ((s.slot? slot).getD []) ++ [s]).length = _
    rw [isSlot, List.length_append, Option.getD_some, ih isList]
    rfl

end Stmt

namespace Fault

/-- What is told when a fault passes through a statement. -/
def passes (fault : Fault) (s : Stmt) : Event :=
  .faultPassed fault s.name s.token

/-- What is told while a fault makes its way out of the given statements, the innermost first, of
which the outermost stands in a list at the given depth: each time the block of the list inside is
left, and then the fault passes through the statement. -/
def unwinding (fault : Fault) (depth : Nat) : List Stmt → List Event
  | [] => []
  | s :: outer =>
    .blockLeft (depth + outer.length) :: fault.passes s :: fault.unwinding depth outer

/-- The way out of one statement more. -/
theorem unwinding_concat (fault : Fault) (depth : Nat) (inner : List Stmt) (s : Stmt) :
    fault.unwinding depth (inner ++ [s])
      = fault.unwinding (depth + 1) inner ++ [.blockLeft depth, fault.passes s] := by
  induction inner with
  | nil => rfl
  | cons t inner ih =>
    have sameDepth : depth + (inner ++ [s]).length = depth + 1 + inner.length := by
      rw [List.length_append, List.length_singleton]
      omega
    rw [List.cons_append, unwinding, unwinding, ih, sameDepth]
    rfl

end Fault

namespace Event

/-- What is let through of two histories is what is let through of each. -/
theorem upTo_append (threshold : Level) (first second : List Event) :
    upTo threshold (first ++ second) = upTo threshold first ++ upTo threshold second :=
  List.filter_append ..

/-- The errors among what is told on the way out of statements are that the fault passes them. -/
theorem upTo_error_unwinding (fault : Fault) (depth : Nat) (around : List Stmt) :
    upTo .error (fault.unwinding depth around) = around.map fault.passes := by
  induction around with
  | nil => rfl
  | cons s outer ih =>
    show fault.passes s :: upTo .error (fault.unwinding depth outer) = _
    rw [ih, List.map_cons]

end Event

/-- What is told from the visit on at which a fault is raised, if the body is at the given depth. -/
def Visit.log (v : Visit) (fault : Fault) (depth : Nat) (body : List Stmt) : List Event :=
  fault.passes v.stmt :: fault.unwinding depth (Stmt.enclosing v.site.place body)

namespace Visit

variable {v : Visit} {body inner : List Stmt} {s : Stmt} {i : Nat} {slot : Slot}

/-- Seen from the list around, the log goes on until the fault passes through the statement that the
list belongs to. -/
theorem log_inside (isAt : body[i]? = some s) (isSlot : s.slot? slot = some inner) (fault : Fault)
    (depth : Nat) :
    (v.inside (i, slot)).log fault depth body
      = v.log fault (depth + 1) inner ++ [.blockLeft depth, fault.passes s] := by
  have oneMore : Stmt.enclosing ((i, slot) :: v.site.place) body
      = Stmt.enclosing v.site.place inner ++ [s] := by
    rw [Stmt.enclosing, isAt]
    show Stmt.enclosing v.site.place ((s.slot? slot).getD []) ++ [s] = _
    rw [isSlot, Option.getD_some]
  show fault.passes v.stmt
    :: fault.unwinding depth (Stmt.enclosing ((i, slot) :: v.site.place) body) = _
  rw [oneMore, Fault.unwinding_concat]
  rfl

/-- The errors in a log are that the fault passes through the statement that raises it and through
those around it. -/
theorem upTo_error_log (v : Visit) (fault : Fault) (depth : Nat) (body : List Stmt) :
    Event.upTo .error (v.log fault depth body)
      = (v.stmt :: Stmt.enclosing v.site.place body).map fault.passes := by
  show fault.passes v.stmt :: Event.upTo .error (fault.unwinding depth _) = _
  rw [Event.upTo_error_unwinding, List.map_cons]

end Visit

/-! ## Quiet steps -/

namespace Context

/-- From `before` to `after` no error is told, and the depth at the end is that at the start. -/
structure Quiet (before after : Context) : Prop where
  depth : after.stack.depth = before.stack.depth
  events : ∃ told, after.events = before.events ++ told ∧ Event.upTo .error told = []

namespace Quiet

variable {a b c : Context}

/-- No error is told where nothing happens. -/
theorem refl (a : Context) : a.Quiet a where
  depth := rfl
  events := ⟨[], (List.append_nil _).symm, rfl⟩

theorem trans (hab : a.Quiet b) (hbc : b.Quiet c) : a.Quiet c where
  depth := hbc.depth.trans hab.depth
  events := by
    obtain ⟨first, isFirst, noneFirst⟩ := hab.events
    obtain ⟨second, isSecond, noneSecond⟩ := hbc.events
    refine ⟨first ++ second, ?_, ?_⟩
    · rw [isSecond, isFirst, List.append_assoc]
    · rw [Event.upTo_append, noneFirst, noneSecond, List.append_nil]

theorem report (h : a.Quiet b) (problem : Problem) (token : Token) :
    a.Quiet (b.report problem token) :=
  { h with }

theorem reportAny (h : a.Quiet b) (problem : Option Problem) (token : Token) :
    a.Quiet (b.reportAny problem token) := by
  cases problem with
  | none => exact h
  | some problem => exact h.report problem token

theorem setLocals (h : a.Quiet b) (locals : Locals) : a.Quiet (b.setLocals locals) where
  depth := (BlockStack.depth_setLocals ..).trans h.depth
  events := h.events

/-- An event that is no error keeps a way quiet. -/
theorem tell (h : a.Quiet b) {event : Event} (noError : Event.upTo .error [event] = []) :
    a.Quiet (b.tell event) where
  depth := h.depth
  events := by
    obtain ⟨told, isTold, none⟩ := h.events
    refine ⟨told ++ [event], ?_, ?_⟩
    · show b.events ++ [event] = _
      rw [isTold, List.append_assoc]
    · rw [Event.upTo_append, none, noError, List.append_nil]

/-- A block with quiet steps inside is quiet as a whole. -/
theorem enter_leave {owner : Owner} (h : (a.enter owner).Quiet b) : a.Quiet b.leave where
  depth := by
    have inside : b.stack.nested.length + 1 = a.stack.nested.length + 1 + 1 := h.depth
    show b.stack.nested.tail.length + 1 = a.stack.nested.length + 1
    rw [List.length_tail]
    omega
  events := by
    obtain ⟨told, isTold, none⟩ := h.events
    refine ⟨.blockEntered (a.stack.enter owner).depth :: told
      ++ [.blockLeft b.stack.leave.depth], ?_, ?_⟩
    · show b.events ++ [_] = _
      rw [isTold]
      show a.events ++ [_] ++ told ++ [_] = _
      simp only [List.append_assoc, List.cons_append, List.nil_append]
    · rw [Event.upTo_append]
      show Event.upTo .error told ++ [] = []
      rw [none]
      rfl

/-- To assign a local and to report a problem are quiet steps. -/
theorem lasting (a : Context) : Lasting a.Quiet where
  setLocals locals h := h.setLocals locals
  report token _ h := h.report _ token

end Quiet

end Context

open Context

/-- A jump tells of its label, which is no error. -/
theorem Simple.analyzeJump_quiet (kind : JumpKind) (keyword : Token) (label : Option Token)
    (ctx : Context) : ctx.Quiet (analyzeJump kind keyword label ctx) := by
  unfold analyzeJump
  dsimp only
  split
  · exact (Quiet.refl ctx).report ..
  · exact .refl ctx
  · exact ((Quiet.refl ctx).tell rfl).reportAny ..

/-- The checks of a statement itself tell of no error. -/
theorem Stmt.checkOwn_quiet (s : Stmt) (ctx : Context) : ctx.Quiet (s.checkOwn ctx) := by
  apply s.checkOwn_keeps (Quiet.lasting ctx) _ (.refl ctx)
  intro kind keyword label
  exact Simple.analyzeJump_quiet kind keyword label ctx

/-! ## Logs -/

/-- The analysis of statements of `body`, or of the lists inside one of them, is quiet if there is
no fault.  If there is one it is quiet up to the last visit, and from there on it tells the log of
the fault, except for the events `missing` that are still to come. -/
inductive Context.Logs (missing : Fault → List Event) (body : List Stmt) (before : Context)
    (visits : List Visit) : Option Fault → Context → Prop
  | ended {after : Context} (quiet : before.Quiet after) :
      Logs missing body before visits none after
  | faulted {after : Context} {fault : Fault} (v : Visit) (quiet : List Event)
      (isLast : visits.getLast? = some v) (noError : Event.upTo .error quiet = [])
      (told : after.events ++ missing fault
        = before.events ++ quiet ++ v.log fault before.stack.depth body) :
      Logs missing body before visits (some fault) after

namespace Context.Logs

variable {a b c : Context} {missing : Fault → List Event} {body inner : List Stmt}
variable {visits : List Visit} {fault : Option Fault} {s : Stmt}

/-- Quiet steps may come first. -/
theorem after_quiet (h : b.Logs missing body visits fault c) (first : a.Quiet b) :
    a.Logs missing body visits fault c := by
  cases h with
  | ended quiet => exact .ended (first.trans quiet)
  | faulted v quiet isLast noError told =>
    obtain ⟨before, isBefore, noneBefore⟩ := first.events
    refine .faulted v (before ++ quiet) isLast ?_ ?_
    · rw [Event.upTo_append, noneBefore, noError, List.append_nil]
    · rw [told, isBefore, first.depth]
      simp only [List.append_assoc]

/-- Only the last visit matters. -/
theorem more (h : a.Logs missing body visits fault c) (earlier : List Visit) :
    a.Logs missing body (earlier ++ visits) fault c := by
  cases h with
  | ended quiet => exact .ended quiet
  | faulted v quiet isLast noError told =>
    refine .faulted v quiet ?_ noError told
    rw [List.getLast?_append, isLast, Option.some_or]

/-- A fault has its log whether it is raised in the first part or in what follows. -/
theorem andThen {α β : Type} {outcome : Outcome α} {following : β} {analyze : Context → Outcome β}
    {later : Context → List Visit} (h : a.Logs missing body visits outcome.fault outcome.ctx)
    (rest : ∀ ctx : Context,
      ctx.Logs missing body (later ctx) (analyze ctx).fault (analyze ctx).ctx) :
    a.Logs missing body (visits ++ outcome.behind later)
      (outcome.andThen following analyze).fault (outcome.andThen following analyze).ctx := by
  obtain ⟨node, ctx, _ | raised⟩ := outcome
  · cases h with
    | ended quiet => exact ((rest ctx).after_quiet quiet).more visits
  · show a.Logs missing body (visits ++ []) (some raised) ctx
    rw [List.append_nil]
    exact h

/-- A list inside a statement: when its block has been left, only the event is missing that the
fault passes through the statement. -/
theorem within {owner : Owner} {i : Nat} {slot : Slot} {analyze : Context → Outcome (List Stmt)}
    (isAt : body[i]? = some s) (isSlot : s.slot? slot = some inner)
    (back : (a.within owner analyze).ctx.stack = a.stack)
    (h : (a.enter owner).Logs (fun _ => []) inner visits (analyze (a.enter owner)).fault
      (analyze (a.enter owner)).ctx) :
    a.Logs (fun fault => [fault.passes s]) body (visits.map (.inside (i, slot)))
      (a.within owner analyze).fault (a.within owner analyze).ctx := by
  show a.Logs _ body _ (analyze (a.enter owner)).fault (analyze (a.enter owner)).ctx.leave
  revert h
  generalize isFault : (analyze (a.enter owner)).fault = fault
  intro h
  cases h with
  | ended quiet => exact .ended quiet.enter_leave
  | @faulted _ fault v quiet isLast noError told =>
    have entered : (a.enter owner).events
        = a.events ++ [.blockEntered (a.stack.enter owner).depth] := rfl
    have left : (analyze (a.enter owner)).ctx.leave.events
        = (analyze (a.enter owner)).ctx.events ++ [.blockLeft a.stack.depth] := by
      show _ ++ [Event.blockLeft (a.within owner analyze).ctx.stack.depth] = _
      rw [back]
    refine .faulted (v.inside (i, slot)) (.blockEntered (a.stack.enter owner).depth :: quiet) ?_
      noError ?_
    · rw [List.getLast?_map, isLast]
      rfl
    · -- Inside, nothing was missing; outside, the fault has not passed the statement yet.
      rw [List.append_nil] at told
      rw [left, told, entered, Visit.log_inside isAt isSlot]
      simp only [List.append_assoc, List.cons_append, List.nil_append]
      rfl

/-- Behind the event that the fault passes through the statement nothing is missing. -/
theorem passing {outcome : Outcome Stmt} (name : outcome.node.name = s.name)
    (token : outcome.node.token = s.token)
    (h : a.Logs (fun fault => [fault.passes s]) body visits outcome.fault outcome.ctx) :
    a.Logs (fun _ => []) body visits outcome.passing.fault outcome.passing.ctx := by
  obtain ⟨node, ctx, _ | raised⟩ := outcome
  · cases h with
    | ended quiet => exact .ended quiet
  · cases h with
    | faulted v quiet isLast noError told =>
      refine .faulted v quiet isLast noError ?_
      show ctx.events ++ [.faultPassed raised node.name node.token] ++ [] = _
      rw [List.append_nil, name, token]
      exact told

end Context.Logs

namespace Stmt

open Context.Logs

/-- An analysis changes neither the name nor the token of a statement. -/
theorem name_analyze (s : Stmt) (ctx : Context) : (s.analyze ctx).node.name = s.name := by
  rw [← name_asBuilt, asBuilt_analyze, name_asBuilt]

/-- An analysis does not move a statement. -/
theorem token_analyze (s : Stmt) (ctx : Context) : (s.analyze ctx).node.token = s.token := by
  rw [← token_asBuilt, asBuilt_analyze, token_asBuilt]

mutual

/-- The analysis of a statement tells the log of its fault, as far as it lies inside the list. -/
theorem logs_visits {i : Nat} {body : List Stmt} : (s : Stmt) → (ctx : Context) →
    body[i]? = some s →
    ctx.Logs (fun _ => []) body (s.visits i ctx) (s.analyze ctx).fault (s.analyze ctx).ctx
  | simple s, ctx, isAt => by
    have own : ctx.Quiet (s.analyze ctx).ctx := (simple s).checkOwn_quiet ctx
    have name := (simple s).name_analyze ctx
    have token := (simple s).token_analyze ctx
    rw [analyze, Outcome.node_passing] at name token
    rw [analyze, visits]
    apply passing name token
    rw [Outcome.fault_map, Outcome.ctx_map]
    cases (s.analyze ctx).fault with
    | none => exact .ended own
    | some fault =>
      obtain ⟨quiet, isQuiet, noError⟩ := own.events
      refine .faulted ⟨⟨[], i⟩, simple s, ctx⟩ quiet rfl noError ?_
      rw [isQuiet]
      rfl
  | breakable keyword label header inner, ctx, isAt => by
    have own : ctx.Quiet (header.analyze keyword ctx).ctx :=
      (breakable keyword label header inner).checkOwn_quiet ctx
    have name := (breakable keyword label header inner).name_analyze ctx
    have token := (breakable keyword label header inner).token_analyze ctx
    rw [analyze, Outcome.node_passing] at name token
    rw [analyze, visits]
    apply passing name token
    refine more ?_ [_]
    refine after_quiet ?_ own
    apply within isAt rfl (stack_within_analyzeList inner _ _)
    exact logs_visits_of_drop inner _ rfl
  | ifElse keyword cond onTrue onFalse, ctx, isAt => by
    have own : ctx.Quiet (cond.analyze ctx).ctx :=
      (ifElse keyword cond onTrue onFalse).checkOwn_quiet ctx
    rw [analyze, visits]
    apply passing rfl rfl
    refine more ?_ [_]
    refine after_quiet ?_ own
    apply andThen
    · apply within isAt rfl (stack_within_analyzeList onTrue _ _)
      exact logs_visits_of_drop onTrue _ rfl
    · intro ctx
      apply within isAt rfl (stack_within_analyzeList onFalse _ _)
      exact logs_visits_of_drop onFalse _ rfl
  | guarded keyword inner caught handler finalizer, ctx, isAt => by
    rw [analyze, visits]
    apply passing rfl rfl
    refine more ?_ [_]
    apply andThen
    · apply andThen
      · apply within isAt rfl (stack_within_analyzeList inner _ _)
        exact logs_visits_of_drop inner _ rfl
      · intro ctx
        exact logs_visitsOfPart isAt handler ctx rfl
    · intro ctx
      exact logs_visitsOfPart isAt finalizer ctx rfl
termination_by structural s => s

theorem logs_visits_of_drop {i : Nat} {body : List Stmt} : (rest : List Stmt) →
    (ctx : Context) → body.drop i = rest →
    ctx.Logs (fun _ => []) body (visitsOfList i rest ctx) (analyzeList rest ctx).fault
      (analyzeList rest ctx).ctx
  | [], ctx, _ => by
    rw [analyzeList, visitsOfList]
    exact .ended (.refl ctx)
  | s :: rest, ctx, isRest => by
    have isAt : body[i]? = some s := by
      rw [← List.head?_drop, isRest]
      rfl
    have isRest' : body.drop (i + 1) = rest := by
      rw [← List.tail_drop, isRest]
      rfl
    rw [analyzeList, visitsOfList, Outcome.fault_map, Outcome.ctx_map]
    exact (logs_visits s ctx isAt).andThen fun ctx => logs_visits_of_drop rest ctx isRest'
termination_by structural rest => rest

theorem logs_visitsOfPart {i : Nat} {body : List Stmt} {s : Stmt} {slot : Slot}
    (isAt : body[i]? = some s) :
    (part : Option (List Stmt)) → (ctx : Context) → s.slot? slot = part →
    ctx.Logs (fun fault => [fault.passes s]) body (visitsOfPart (i, slot) part ctx)
      (analyzePart part ctx).fault (analyzePart part ctx).ctx
  | none, ctx, _ => by
    rw [analyzePart, visitsOfPart]
    exact .ended (.refl ctx)
  | some inner, ctx, isSlot => by
    rw [analyzePart, visitsOfPart, Outcome.fault_map, Outcome.ctx_map]
    exact within isAt isSlot (stack_within_analyzeList inner ctx .guarded)
      (logs_visits_of_drop inner _ rfl)
termination_by structural part => part

end

/-- The analysis of a list tells the log of its fault. -/
theorem logs_visitsOfList (body : List Stmt) (ctx : Context) :
    ctx.Logs (fun _ => []) body (visitsOfList 0 body ctx) (analyzeList body ctx).fault
      (analyzeList body ctx).ctx :=
  logs_visits_of_drop body ctx rfl

/-- **The log of a fault.**  An analysis without a fault tells of no error.  If there is a fault, it
is raised by the statement visited last.  The errors that are told of are that the fault passes
through this statement and then through all those around it, from the innermost to the one in the
analyzed list, each with its file and line, its name and the fault.  Nothing else is told between
them but that the block is left in which the previous one stands. -/
theorem faults_logged_along_path (body : List Stmt) (ctx : Context) :
    let visits := visitsOfList 0 body ctx
    let outcome := analyzeList body ctx
    ∃ told, outcome.ctx.events = ctx.events ++ told ∧
      (outcome.fault = none → Event.upTo .error told = []) ∧
      ∀ fault, outcome.fault = some fault → ∃ v quiet,
        visits.getLast? = some v ∧
        stmtAt? v.site body = some v.stmt ∧
        v.Raises (ownerAt ctx.stack.top.owner v.site.place body) fault ∧
        (enclosing v.site.place body).length = v.site.place.length ∧
        told = quiet ++ fault.passes v.stmt ::
          fault.unwinding ctx.stack.depth (enclosing v.site.place body) ∧
        Event.upTo .error quiet = [] ∧
        (Event.upTo .error told).map Event.fields
          = (v.stmt :: enclosing v.site.place body).map fun s =>
              [("file", .text (s.token.file.getD "<unknown>")), ("line", .count s.token.line),
                ("statement", .text s.name), ("fault", .text fault.text)] := by
  intro visits outcome
  have standsIn : ∀ v ∈ visits, v.StandsIn body ctx.stack.owners :=
    standsIn_of_mem_visitsOfList body ctx
  have ends : EndsAt outcome.fault visits := endsAt_visitsOfList 0 body ctx
  have logs : ctx.Logs (fun _ => []) body visits outcome.fault outcome.ctx :=
    logs_visitsOfList body ctx
  cases isFault : outcome.fault with
  | none =>
    rw [isFault] at logs
    cases logs with
    | ended quiet =>
      obtain ⟨told, isTold, noError⟩ := quiet.events
      exact ⟨told, isTold, fun _ => noError, nofun⟩
  | some fault =>
    rw [isFault] at logs ends
    cases logs with
    | faulted v quiet isLast noError told =>
      obtain ⟨before, w, split, raised, -⟩ := ends
      have same : w = v := by
        rw [split, List.getLast?_concat] at isLast
        exact Option.some.inj isLast
      have mem : v ∈ visits := List.mem_of_getLast? isLast
      have sameKind := (standsIn v mem).isSwitch_top
      refine ⟨quiet ++ v.log fault ctx.stack.depth body, ?_, nofun, ?_⟩
      · rw [← List.append_assoc, ← told, List.append_nil]
      · rintro _ ⟨⟩
        refine ⟨v, quiet, isLast, (standsIn v mem).stmt,
          (Visit.fault?_eq_some_iff sameKind).mp (same ▸ raised), ?_, rfl, noError, ?_⟩
        · obtain ⟨list, isList, -⟩ := Option.bind_eq_some_iff.mp (standsIn v mem).stmt
          exact length_enclosing isList
        · rw [Event.upTo_append, noError, List.nil_append, v.upTo_error_log, List.map_map]
          rfl

/-- A fault in the arm of an if statement, in the handler of a try statement whose body has been
analyzed before, in a loop. -/
theorem faults_logged_along_path_of_handler :
    let one : Expr := .value (.synthetic "1") (.typed .int) none
    let here : Token := ⟨"assert", some "m.jsx", 4, 7, ⟨40, 46⟩⟩
    let leave : Stmt := .simple (.jump .breaks (.synthetic "break") none)
    let body (arm : List Stmt) : List Stmt :=
      [.breakable (.synthetic "while") none (.whileLoop one)
        [.guarded (.synthetic "try") [leave] none
          (some [leave, .ifElse (.synthetic "if") one [leave] arm]) none]]
    let ctx := Context.start default .empty default
    let fault : Fault := ⟨.emptyAssertion, here⟩
    let outcome := analyzeList (body [.simple (.assert here [])]) ctx
    (analyzeList (body []) ctx).fault = none ∧
      Event.upTo .error (analyzeList (body []) ctx).ctx.events = [] ∧
      outcome.fault = some fault ∧
      (∃ quiet, Event.upTo .error quiet = [] ∧ outcome.ctx.events = quiet ++
        [.faultPassed fault "AssertStatement" here,
          .blockLeft 3, .faultPassed fault "IfStatement" (.synthetic "if"),
          .blockLeft 2, .faultPassed fault "TryStatement" (.synthetic "try"),
          .blockLeft 1, .faultPassed fault "WhileStatement" (.synthetic "while")]) ∧
      (Event.upTo .error outcome.ctx.events).map Event.fields
        = [("m.jsx", 4, "AssertStatement"), ("<unknown>", 0, "IfStatement"),
            ("<unknown>", 0, "TryStatement"), ("<unknown>", 0, "WhileStatement")].map fun at' =>
          [("file", .text at'.1), ("line", .count at'.2.1), ("statement", .text at'.2.2),
            ("fault", .text fault.text)] := by
  intro one here leave body ctx fault outcome
  have ended : (analyzeList (body []) ctx).fault = none := by decide +kernel
  have faulted : outcome.fault = some fault := by decide +kernel
  obtain ⟨told, isTold, noError, -⟩ := faults_logged_along_path (body []) ctx
  obtain ⟨told', isTold', -, logged⟩ :=
    faults_logged_along_path (body [.simple (.assert here [])]) ctx
  obtain ⟨v, quiet, isLast, -, -, -, isLog, noneBefore, fields⟩ := logged fault faulted
  rw [show (analyzeList (body []) ctx).ctx.events = told from isTold]
  rw [show outcome.ctx.events = told' from isTold']
  have site : v.site = ⟨[(0, .body), (0, .handler), (1, .onFalse)], 0⟩ :=
    Option.some.inj ((congrArg (Option.map Visit.site) isLast).symm.trans rfl)
  have stmt : v.stmt = .simple (.assert here []) :=
    Option.some.inj ((congrArg (Option.map Visit.stmt) isLast).symm.trans rfl)
  rw [site, stmt] at isLog fields
  exact ⟨ended, noError ended, faulted, ⟨quiet, noneBefore, isLog⟩, fields⟩

end Stmt

end BodyCheck
