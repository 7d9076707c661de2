import BodyCheck.Block.Stack
import BodyCheck.Class.Registry
import BodyCheck.Event

/-!
# The context of an analysis

What the analysis of a function body knows and what it has found so far.

## Main definitions

* `FunctionDef` — the function whose body is analyzed.
* `Context` — the function, the visible classes, the open blocks, the diagnostics and the events.
* `Context.report` and `Context.tell` — add a diagnostic or an event.
* `Context.enter` and `Context.leave` — open and close a block.

## Design notes

Diagnostics and events are kept in the order in which they arise and are only ever added at the
end.  The function and the classes stay what they are throughout an analysis.
-/

namespace BodyCheck

/-- A function: the token of its name, its return type and the class it belongs to. -/
structure FunctionDef where
  token : Token
  returns : Ty
  cls : ClassDef
deriving DecidableEq, Repr, Inhabited

/-- The name of the function. -/
def FunctionDef.name (function : FunctionDef) : String :=
  function.token.value

/-- What an analysis knows and what it has found. -/
structure Context where
  function : FunctionDef
  classes : Registry
  stack : BlockStack
  diagnostics : List Diagnostic
  events : List Event
deriving Repr, Inhabited

namespace Context

/-- The context at the start of a function body. -/
def start (function : FunctionDef) (locals : Locals) (classes : Registry) : Context :=
  ⟨function, classes, .ofLocals locals, [], []⟩

/-- Adds a diagnostic. -/
def report (ctx : Context) (problem : Problem) (token : Token) : Context :=
  { ctx with diagnostics := ctx.diagnostics ++ [⟨problem, token⟩] }

/-- Adds a diagnostic if there is a problem. -/
def reportAny (ctx : Context) (problem : Option Problem) (token : Token) : Context :=
  match problem with
  | some problem => ctx.report problem token
  | none => ctx

/-- Adds an event. -/
def tell (ctx : Context) (event : Event) : Context :=
  { ctx with events := ctx.events ++ [event] }

/-- Opens a block. -/
def enter (ctx : Context) (owner : Owner) : Context :=
  let stack := ctx.stack.enter owner
  { ctx with stack }.tell (.blockEntered stack.depth)

/-- Closes the innermost block. -/
def leave (ctx : Context) : Context :=
  let stack := ctx.stack.leave
  { ctx with stack }.tell (.blockLeft stack.depth)

/-- What is known about the locals in the innermost block. -/
def locals (ctx : Context) : Locals :=
  ctx.stack.locals

/-- Replaces what is known about the locals in the innermost block. -/
def setLocals (ctx : Context) (locals : Locals) : Context :=
  { ctx with stack := ctx.stack.setLocals locals }

@[simp] theorem diagnostics_enter (ctx : Context) (owner : Owner) :
    (ctx.enter owner).diagnostics = ctx.diagnostics := rfl

@[simp] theorem diagnostics_leave (ctx : Context) :
    ctx.leave.diagnostics = ctx.diagnostics := rfl

@[simp] theorem stack_enter (ctx : Context) (owner : Owner) :
    (ctx.enter owner).stack = ctx.stack.enter owner := rfl

@[simp] theorem stack_leave (ctx : Context) : ctx.leave.stack = ctx.stack.leave := rfl

@[simp] theorem stack_report (ctx : Context) (problem : Problem) (token : Token) :
    (ctx.report problem token).stack = ctx.stack := rfl

@[simp] theorem stack_tell (ctx : Context) (event : Event) :
    (ctx.tell event).stack = ctx.stack := rfl

end Context

end BodyCheck
