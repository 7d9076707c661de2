import BodyCheck.Proofs.Jumps
import BodyCheck.Session

/-!
# Isolation of blocks

Whatever happens inside a block, the frames around it stay as they were when it was entered, and
they are all that is there when it has been left.

## Main definitions

* `Event.Balanced` — events of which those about blocks count correctly, and come in pairs.
* `Context.Returns` — what happens between two contexts at the same depth.
* `Context.Passes` — what one recorded happening does to the frames, and which blocks are then open.
* `Context.Course` — what several happenings do, one after the other.

## Main statements

* `Stmt.analyze_returns` — every analysis comes back to the depth it started from.
* `Session.run_proceeds` — so does every run of a session, and its records are a course.
* `Session.blocks_isolated` — the isolation of blocks over a whole run.

## Design notes

A course keeps for every open block all the frames that were there when the block was entered.  That
they are there again behind the block is a rule for courses and not a consequence of one, so it must
be shown of every run that its records follow the rules.
-/

namespace BodyCheck

/-! ## Balanced events -/

namespace Event

/-- Whether the event is that a block is entered or left. -/
def isOfBlock : Event → Bool
  | blockEntered _ | blockLeft _ => true
  | _ => false

/-- The events begin and end at the same depth.  Every block that is entered is left again; the
depth told on entering it is one more than the current one, and that told on leaving it one less. -/
inductive Balanced : Nat → List Event → Prop
  | nil (depth : Nat) : Balanced depth []
  | other {depth : Nat} {event : Event} {rest : List Event} (isOther : event.isOfBlock = false)
      (behind : Balanced depth rest) : Balanced depth (event :: rest)
  | block {depth : Nat} {inside rest : List Event} (within : Balanced (depth + 1) inside)
      (behind : Balanced depth rest) :
      Balanced depth (blockEntered (depth + 1) :: (inside ++ blockLeft depth :: rest))

namespace Balanced

variable {depth : Nat} {first second : List Event}

/-- Balanced events may follow one another, as the first come back to the depth they start from. -/
theorem append (h : Balanced depth first) (h' : Balanced depth second) :
    Balanced depth (first ++ second) := by
  induction h with
  | nil => exact h'
  | other isOther _ ih => exact .other isOther (ih h')
  | block within _ _ ih =>
    rw [List.cons_append, List.append_assoc, List.cons_append]
    exact .block within (ih h')

/-- An event that is not about a block is balanced by itself. -/
theorem of_other {event : Event} (isOther : event.isOfBlock = false) : Balanced depth [event] :=
  .other isOther (.nil depth)

/-- A block with balanced events inside is balanced around it. -/
theorem of_block (within : Balanced (depth + 1) first) :
    Balanced depth ([blockEntered (depth + 1)] ++ first ++ [blockLeft depth]) :=
  .block within (.nil depth)

end Balanced

end Event

/-! ## Coming back to a depth -/

namespace BlockStack

/-- A block adds a frame in front that starts with the locals of the frame below. -/
theorem frames_enter (stack : BlockStack) (owner : Owner) :
    (stack.enter owner).frames = ⟨owner, stack.locals⟩ :: stack.frames := rfl

/-- The outermost frame is that of the function. -/
theorem getLast?_frames (stack : BlockStack) :
    stack.frames.getLast? = some ⟨.function, stack.body⟩ :=
  List.getLast?_concat

end BlockStack

namespace Context

/-- From `before` to `after` only the locals of the innermost frame change, and every block that is
entered on the way is left again. -/
structure Returns (before after : Context) : Prop where
  stack : after.stack = before.stack.setLocals after.locals
  events : ∃ told, after.events = before.events ++ told ∧ Event.Balanced before.stack.depth told

namespace Returns

variable {a b c : Context}

/-- A step that touches neither frames nor events. -/
theorem of_eq (stack : b.stack = a.stack) (events : b.events = a.events) : a.Returns b where
  stack := by rw [locals, stack]; exact (BlockStack.setLocals_locals _).symm
  events := ⟨[], events.trans (List.append_nil _).symm, .nil _⟩

/-- Nothing is entered and nothing changes where nothing happens. -/
theorem refl (a : Context) : a.Returns a :=
  of_eq rfl rfl

/-- What returns is at the depth it started from. -/
theorem depth (h : a.Returns b) : b.stack.depth = a.stack.depth := by
  rw [h.stack, BlockStack.depth_setLocals]

/-- Steps that return may follow one another. -/
theorem trans (hab : a.Returns b) (hbc : b.Returns c) : a.Returns c where
  stack := by rw [hbc.stack, hab.stack, BlockStack.setLocals_setLocals]
  events := by
    obtain ⟨first, isFirst, balancedFirst⟩ := hab.events
    obtain ⟨second, isSecond, balancedSecond⟩ := hbc.events
    refine ⟨first ++ second, ?_, balancedFirst.append (hab.depth ▸ balancedSecond)⟩
    rw [isSecond, isFirst, List.append_assoc]

/-- What is written about the locals is written in the innermost frame. -/
theorem setLocals (h : a.Returns b) (locals : Locals) : a.Returns (b.setLocals locals) :=
  { h with stack := by rw [locals_setLocals, Context.setLocals, h.stack,
      BlockStack.setLocals_setLocals] }

theorem report (h : a.Returns b) (problem : Problem) (token : Token) :
    a.Returns (b.report problem token) :=
  { h with }

theorem reportAny (h : a.Returns b) (problem : Option Problem) (token : Token) :
    a.Returns (b.reportAny problem token) := by
  cases problem with
  | none => exact h
  | some problem => exact h.report problem token

theorem tell (h : a.Returns b) {event : Event} (isOther : event.isOfBlock = false) :
    a.Returns (b.tell event) := by
  obtain ⟨told, isTold, balanced⟩ := h.events
  refine { h with events := ⟨told ++ [event], ?_, balanced.append (.of_other isOther)⟩ }
  show b.events ++ [event] = _
  rw [isTold, List.append_assoc]

/-- Leaving a block restores the stack on which it was entered. -/
theorem stack_leave {owner : Owner} (h : (a.enter owner).Returns b) : b.leave.stack = a.stack := by
  show b.stack.leave = a.stack
  rw [h.stack]
  exact BlockStack.leave_setLocals_enter ..

/-- A block is left at the depth at which it was entered. -/
theorem enter_leave {owner : Owner} (h : (a.enter owner).Returns b) : a.Returns b.leave := by
  have restored : b.leave.stack = a.stack := stack_leave h
  obtain ⟨told, isTold, balanced⟩ := h.events
  constructor
  · rw [locals, restored]
    exact (BlockStack.setLocals_locals _).symm
  · refine ⟨_, ?_, balanced.of_block⟩
    show b.events ++ [.blockLeft b.leave.stack.depth] = _
    rw [restored, isTold]
    show a.events ++ [_] ++ told ++ _ = _
    simp only [List.append_assoc]
    rfl

/-- A block is left as it was entered, so what is analyzed in it returns to before it. -/
theorem within {α : Type} {owner : Owner} {analyze : Context → Outcome α}
    (h : (a.enter owner).Returns (analyze (a.enter owner)).ctx) :
    a.Returns (a.within owner analyze).ctx :=
  enter_leave h

/-- A fault that passes a statement is told when all blocks in it have been left. -/
theorem passing {outcome : Outcome Stmt} (h : a.Returns outcome.ctx) :
    a.Returns outcome.passing.ctx := by
  obtain ⟨node, ctx, _ | fault⟩ := outcome
  · exact h
  · exact h.tell rfl

/-- What follows returns as well, and behind a fault there is nothing more to return from. -/
theorem andThen {α β : Type} {outcome : Outcome α} {following : β} {analyze : Context → Outcome β}
    (h : a.Returns outcome.ctx) (rest : ∀ ctx : Context, ctx.Returns (analyze ctx).ctx) :
    a.Returns (outcome.andThen following analyze).ctx := by
  obtain ⟨node, ctx, _ | fault⟩ := outcome
  · exact h.trans (rest ctx)
  · exact h

/-- To assign a local and to report a problem are steps within the innermost list. -/
theorem lasting (a : Context) : Lasting a.Returns where
  setLocals locals h := h.setLocals locals
  report token _ h := h.report _ token

end Returns

end Context

/-! ### Analyses -/

open Context

/-- The analysis of an expression opens no block. -/
theorem Expr.analyze_returns (e : Expr) (ctx : Context) : ctx.Returns (e.analyze ctx).ctx :=
  e.analyze_lasting (Returns.lasting ctx) (.refl ctx)

theorem Simple.analyzeJump_returns (kind : JumpKind) (keyword : Token) (label : Option Token)
    (ctx : Context) : ctx.Returns (analyzeJump kind keyword label ctx) := by
  unfold analyzeJump
  dsimp only
  split
  · exact (Returns.refl ctx).report ..
  · exact .refl ctx
  · exact ((Returns.refl ctx).tell rfl).reportAny ..

namespace Stmt

theorem checkOwn_returns (s : Stmt) (ctx : Context) : ctx.Returns (s.checkOwn ctx) := by
  apply s.checkOwn_keeps (Returns.lasting ctx) _ (.refl ctx)
  intro kind keyword label
  exact Simple.analyzeJump_returns kind keyword label ctx

mutual

/-- Every analysis comes back to the depth it started from, with and without a fault. -/
theorem analyze_returns : (s : Stmt) → (ctx : Context) → ctx.Returns (s.analyze ctx).ctx
  | simple s, ctx => by
    rw [analyze]
    have own : ctx.Returns ((s.analyze ctx).map simple).ctx := (simple s).checkOwn_returns ctx
    exact own.passing
  | breakable keyword label header body, ctx => by
    rw [analyze]
    have own := (breakable keyword label header body).checkOwn_returns ctx
    exact (own.trans (Returns.within (analyzeList_returns body _))).passing
  | ifElse keyword cond onTrue onFalse, ctx => by
    rw [analyze]
    have insideTrue := Returns.within (analyzeList_returns onTrue
      ((cond.analyze ctx).ctx.enter .branch))
    have insideFalse (ctx : Context) := Returns.within (analyzeList_returns onFalse
      (ctx.enter .branch))
    exact ((cond.analyze_returns ctx).trans (insideTrue.andThen insideFalse)).passing
  | guarded keyword body caught handler finalizer, ctx => by
    rw [analyze]
    have insideBody := Returns.within (analyzeList_returns body (ctx.enter .guarded))
    exact ((insideBody.andThen (analyzePart_returns handler)).andThen
      (analyzePart_returns finalizer)).passing

/-- The analysis of a list leaves every block that it enters, also on a fault. -/
theorem analyzeList_returns : (body : List Stmt) → (ctx : Context) →
    ctx.Returns (analyzeList body ctx).ctx
  | [], ctx => by
    rw [analyzeList]
    exact .refl ctx
  | s :: rest, ctx => by
    rw [analyzeList, Outcome.ctx_map]
    exact (analyze_returns s ctx).andThen (analyzeList_returns rest)

theorem analyzePart_returns : (part : Option (List Stmt)) → (ctx : Context) →
    ctx.Returns (analyzePart part ctx).ctx
  | none, ctx => by
    rw [analyzePart]
    exact .refl ctx
  | some body, ctx => by
    rw [analyzePart, Outcome.ctx_map]
    exact Returns.within (analyzeList_returns body _)

end

end Stmt

/-! ## Courses -/

/-- Whether the happening is that a block is entered or left. -/
def Happening.isOfBlock : Happening → Bool
  | entered | left => true
  | _ => false

namespace Context

/-- What a recorded happening does.  The blocks that are open before it and behind it are given by
the frames that were there when they were entered, the innermost first. -/
inductive Passes (before : Context) : List (List Frame) → Record → List (List Frame) → Prop
  /-- A frame is added that starts with the locals of the frame below. -/
  | entered {opened : List (List Frame)} {r : Record} (owner : Owner)
      (happening : r.happening = .entered)
      (frames : r.ctx.stack.frames = ⟨owner, before.locals⟩ :: before.stack.frames)
      (events : r.ctx.events = before.events ++ [.blockEntered (before.stack.depth + 1)]) :
      Passes before opened r (before.stack.frames :: opened)
  /-- The innermost frame goes, and the others are just those from before the block. -/
  | left {outer : List Frame} {opened : List (List Frame)} {r : Record}
      (happening : r.happening = .left)
      (below : before.stack.frames.tail = outer)
      (frames : r.ctx.stack.frames = outer)
      (events : r.ctx.events = before.events ++ [.blockLeft (before.stack.depth - 1)]) :
      Passes before (outer :: opened) r opened
  /-- Everything else changes nothing but the locals of the innermost frame. -/
  | stayed {opened : List (List Frame)} {r : Record}
      (happening : r.happening.isOfBlock = false) (returns : before.Returns r.ctx) :
      Passes before opened r opened

/-- What recorded happenings do, one after the other. -/
inductive Course : Context → List (List Frame) → List Record → Context → List (List Frame) → Prop
  | nil (ctx : Context) (opened : List (List Frame)) : Course ctx opened [] ctx opened
  | cons {a b : Context} {opened between behind : List (List Frame)} {r : Record}
      {rest : List Record} (first : a.Passes opened r between)
      (others : Course r.ctx between rest b behind) : Course a opened (r :: rest) b behind

/-- Every happening keeps the depth in step with the number of open blocks. -/
theorem Passes.depth {a : Context} {opened behind : List (List Frame)} {r : Record}
    (h : a.Passes opened r behind) (start : a.stack.depth = 1 + opened.length) :
    r.ctx.stack.depth = 1 + behind.length := by
  cases h with
  | entered owner happening frames events =>
    rw [← BlockStack.length_frames, frames, List.length_cons, BlockStack.length_frames, start,
      List.length_cons]
    omega
  | left happening below frames events =>
    rw [← BlockStack.length_frames, frames, ← below, List.length_tail, BlockStack.length_frames,
      start, List.length_cons]
    omega
  | stayed happening returns => rw [returns.depth, start]

namespace Course

variable {a b c : Context} {opened between behind : List (List Frame)}
variable {records others : List Record}

/-- Courses may follow one another. -/
theorem append (h : Course a opened records b between) (h' : Course b between others c behind) :
    Course a opened (records ++ others) c behind := by
  induction h with
  | nil => exact h'
  | cons first _ ih => exact .cons first (ih h')

/-- A single happening is a course. -/
theorem of_passes {r : Record} (h : a.Passes opened r between) :
    Course a opened [r] r.ctx between :=
  .cons h (.nil _ _)

/-- A course can be interrupted at any point. -/
theorem exists_between (h : Course a opened records c behind) (n : Nat) :
    ∃ b between, Course a opened (records.take n) b between ∧
      Course b between (records.drop n) c behind := by
  induction h generalizing n with
  | nil ctx opened =>
    refine ⟨ctx, opened, ?_, ?_⟩
    · rw [List.take_nil]
      exact .nil ctx opened
    · rw [List.drop_nil]
      exact .nil ctx opened
  | @cons a _ opened _ _ r rest first others ih =>
    cases n with
    | zero => exact ⟨a, opened, .nil a opened, .cons first others⟩
    | succ n =>
      obtain ⟨b, between, upTo, onwards⟩ := ih n
      exact ⟨b, between, .cons first upTo, onwards⟩

/-- At every point the depth counts the open blocks and the function body. -/
theorem depth (h : Course a opened records b behind) (start : a.stack.depth = 1 + opened.length) :
    b.stack.depth = 1 + behind.length := by
  induction h with
  | nil => exact start
  | cons first _ ih => exact ih (first.depth start)

end Course

end Context

/-! ## Runs of a session -/

namespace Session

/-- The steps come back to the depth they started from, and their records are a course that leaves
the same blocks open. -/
structure Proceeds (session : Session) (result : Session × List Record) : Prop where
  returns : session.ctx.Returns result.1.ctx
  course : ∀ opened, Course session.ctx opened result.2 result.1.ctx opened

namespace Proceeds

variable {session : Session} {result : Session × List Record}

/-- Where nothing is done nothing is recorded. -/
theorem nothing (session : Session) : session.Proceeds (session, []) where
  returns := .refl _
  course opened := .nil _ opened

/-- A single action outside of blocks is one record. -/
theorem single {after : Session} {happening : Happening} (isOther : happening.isOfBlock = false)
    (returns : session.ctx.Returns after.ctx) :
    session.Proceeds (session.single after happening) where
  returns := returns
  course _ := .of_passes (.stayed isOther returns)

/-- What happens inside a block is behind it as if it had not happened. -/
theorem block {owner : Owner}
    (h : Proceeds { session with ctx := session.ctx.enter owner } result) :
    let entered := { session with ctx := session.ctx.enter owner }
    let after := { result.1 with ctx := result.1.ctx.leave }
    session.Proceeds (after,
      session.record entered .entered :: result.2 ++ [result.1.record after .left]) := by
  intro entered after
  have inside : (session.ctx.enter owner).Returns result.1.ctx := h.returns
  have restored : result.1.ctx.leave.stack = session.ctx.stack := inside.stack_leave
  refine ⟨inside.enter_leave, fun opened => ?_⟩
  have enters : session.ctx.Passes opened (session.record entered .entered)
      (session.ctx.stack.frames :: opened) :=
    .entered owner rfl (BlockStack.frames_enter ..) rfl
  refine .cons enters ((h.course _).append (.of_passes (.left rfl ?_ ?_ ?_)))
  · rw [inside.stack]
    exact BlockStack.tail_frames_setLocals ..
  · exact congrArg BlockStack.frames restored
  · show _ ++ [Event.blockLeft result.1.ctx.leave.stack.depth] = _
    rw [restored, inside.depth]
    rfl

/-- Actions may follow one another. -/
theorem append (h : session.Proceeds result) {others : Session × List Record}
    (h' : result.1.Proceeds others) : session.Proceeds (others.1, result.2 ++ others.2) where
  returns := h.returns.trans h'.returns
  course opened := (h.course opened).append (h'.course opened)

end Proceeds

mutual

/-- Every action proceeds, a block with all actions in it. -/
theorem step_proceeds : (action : Action) → (session : Session) →
    session.Proceeds (step action session)
  | .block owner actions, session => by
    rw [step]
    exact .block (run_proceeds actions _)
  | .analyzeStmt id, session => by
    rw [step]
    split
    · exact .nothing session
    · exact .single rfl (Stmt.analyze_returns _ _)
  | .analyzeExpr id, session => by
    rw [step]
    split
    · exact .nothing session
    · exact .single rfl (Expr.analyze_returns _ _)
  | .declare name status, session => by
    rw [step]
    exact .single rfl ((Returns.refl _).setLocals _)
  | .assign name, session => by
    rw [step]
    split
    · exact .single rfl ((Returns.refl _).setLocals _)
    · exact .single rfl (.refl _)
  | .setFunction function, session => by
    rw [step]
    exact .single rfl (.of_eq rfl rfl)
  | .setClasses classes, session => by
    rw [step]
    exact .single rfl (.of_eq rfl rfl)
  | .askOwners, session => by
    rw [step]
    exact .single rfl (.refl _)

/-- Whatever its actions are, a run follows the rules for blocks. -/
theorem run_proceeds : (actions : List Action) → (session : Session) →
    session.Proceeds (run actions session)
  | [], session => by
    rw [run]
    exact .nothing session
  | action :: rest, session => by
    rw [run]
    exact (step_proceeds action session).append (run_proceeds rest _)

end

/-- A block adds a frame of its own to those that are there, and behind it the whole stack is what it
was before the block, whatever happened inside. -/
theorem exists_records_block (owner : Owner) (actions : List Action) (session : Session) :
    let result := step (.block owner actions) session
    ∃ entered left,
      result.2 = entered :: (run actions { session with ctx := entered.ctx }).2 ++ [left] ∧
      entered.ctx.stack.frames = ⟨owner, session.ctx.locals⟩ :: session.ctx.stack.frames ∧
      left.ctx.stack = session.ctx.stack ∧
      result.1.ctx = left.ctx := by
  intro result
  let within : Session := { session with ctx := session.ctx.enter owner }
  let inside := run actions within
  let after : Session := { inside.1 with ctx := inside.1.ctx.leave }
  have isBlock : result
      = (after, session.record within .entered :: inside.2 ++ [inside.1.record after .left]) := by
    show step (.block owner actions) session = _
    rw [step]
  have restored : after.ctx.stack = session.ctx.stack :=
    (run_proceeds actions within).returns.stack_leave
  refine ⟨session.record within .entered, inside.1.record after .left, ?_,
    BlockStack.frames_enter .., restored, ?_⟩
  · rw [isBlock]
    rfl
  · rw [isBlock]
    rfl

/-- **Isolation of blocks.**  The records of a run that starts at a function body follow the rules
for blocks: a block starts with the locals of the list around it, and behind it all frames are those
that were there when it was entered; nothing else touches any frame but the innermost.  At every
point the depth is one more than the number of open blocks, and the outermost frame is that of the
function.  The depths that are told count correctly, also those told by analyses, and the run ends
at the depth it started from. -/
theorem blocks_isolated (function : FunctionDef) (locals : Locals) (classes : Registry)
    (stmts : List (String × Stmt)) (exprs : List (String × Expr)) (actions : List Action) :
    let start : Session := ⟨.start function locals classes, stmts, exprs⟩
    let ended := (run actions start).1
    let records := (run actions start).2
    start.ctx.Returns ended.ctx ∧
    Event.Balanced 1 ended.ctx.events ∧
    (∀ owner inner (session : Session), ∃ entered left,
      (step (.block owner inner) session).2
        = entered :: (run inner { session with ctx := entered.ctx }).2 ++ [left] ∧
      entered.ctx.stack.frames = ⟨owner, session.ctx.locals⟩ :: session.ctx.stack.frames ∧
      left.ctx.stack = session.ctx.stack ∧
      (step (.block owner inner) session).1.ctx = left.ctx) ∧
    ∀ n, ∃ ctx opened,
      Course start.ctx [] (records.take n) ctx opened ∧
      Course ctx opened (records.drop n) ended.ctx [] ∧
      ctx.stack.depth = 1 + opened.length ∧
      ∃ known, ctx.stack.frames.getLast? = some ⟨.function, known⟩ := by
  intro start ended records
  have proceeds : start.Proceeds (run actions start) := run_proceeds actions start
  have returns : start.ctx.Returns ended.ctx := proceeds.returns
  have course : Course start.ctx [] records ended.ctx [] := proceeds.course []
  refine ⟨returns, ?_, exists_records_block, ?_⟩
  · obtain ⟨told, isTold, balanced⟩ := returns.events
    rw [isTold]
    exact balanced
  · intro n
    obtain ⟨ctx, opened, upTo, onwards⟩ := course.exists_between n
    exact ⟨ctx, opened, upTo, onwards, upTo.depth rfl, _, ctx.stack.getLast?_frames⟩

end Session

end BodyCheck
