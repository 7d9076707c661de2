import BodyCheck.Block.Locals
import BodyCheck.Block.Owner

/-!
# The stack of open blocks

While a body is analyzed, every statement list that has been entered and not yet left has a
frame.  A new frame starts with a copy of what the frame around it knows about the locals, and
leaving throws the copy away, so that assignments made inside a list are forgotten behind it.

## Main definitions

* `Frame` — the owner of a list and what is known about the locals inside it.
* `BlockStack` — the frame of the function with the frames nested in it.
* `BlockStack.enter` and `BlockStack.leave`.

## Design notes

The frame of the function is kept apart from the others, so it can never be left.
-/

namespace BodyCheck

/-- An open statement list. -/
structure Frame where
  owner : Owner
  locals : Locals
deriving DecidableEq, Repr, Inhabited

/-- The open statement lists of a function body; `nested` holds those inside the body itself,
the innermost first. -/
structure BlockStack where
  body : Locals
  nested : List Frame
deriving DecidableEq, Repr, Inhabited

namespace BlockStack

/-- The stack at the start of a function body. -/
def ofLocals (locals : Locals) : BlockStack :=
  ⟨locals, []⟩

/-- The number of open lists, the function body included. -/
def depth (stack : BlockStack) : Nat :=
  stack.nested.length + 1

/-- The frame of the innermost open list. -/
def top : BlockStack → Frame
  | ⟨body, []⟩ => ⟨.function, body⟩
  | ⟨_, frame :: _⟩ => frame

/-- What is known about the locals in the innermost open list. -/
def locals (stack : BlockStack) : Locals :=
  stack.top.locals

/-- Replaces what is known about the locals in the innermost open list. -/
def setLocals : BlockStack → Locals → BlockStack
  | ⟨_, []⟩, locals => ⟨locals, []⟩
  | ⟨body, frame :: outer⟩, locals => ⟨body, { frame with locals } :: outer⟩

/-- The owners of the open lists inside the function body, the innermost first. -/
def owners (stack : BlockStack) : List Owner :=
  stack.nested.map (·.owner)

/-- Opens a list, which starts with what is known so far. -/
def enter (stack : BlockStack) (owner : Owner) : BlockStack :=
  { stack with nested := ⟨owner, stack.locals⟩ :: stack.nested }

/-- Closes the innermost list and forgets what became known inside it. -/
def leave (stack : BlockStack) : BlockStack :=
  { stack with nested := stack.nested.tail }

@[simp] theorem leave_enter (stack : BlockStack) (owner : Owner) :
    (stack.enter owner).leave = stack := rfl

/-- A new block starts with a copy of what is known about the locals. -/
@[simp] theorem top_enter (stack : BlockStack) (owner : Owner) :
    (stack.enter owner).top = ⟨owner, stack.locals⟩ := rfl

@[simp] theorem depth_enter (stack : BlockStack) (owner : Owner) :
    (stack.enter owner).depth = stack.depth + 1 := rfl

@[simp] theorem owners_enter (stack : BlockStack) (owner : Owner) :
    (stack.enter owner).owners = owner :: stack.owners := rfl

/-- What is written about the locals is what is found there afterwards. -/
@[simp] theorem locals_setLocals (stack : BlockStack) (locals : Locals) :
    (stack.setLocals locals).locals = locals := by
  obtain ⟨_, _ | _⟩ := stack <;> rfl

@[simp] theorem depth_setLocals (stack : BlockStack) (locals : Locals) :
    (stack.setLocals locals).depth = stack.depth := by
  obtain ⟨_, _ | _⟩ := stack <;> rfl

@[simp] theorem owners_setLocals (stack : BlockStack) (locals : Locals) :
    (stack.setLocals locals).owners = stack.owners := by
  obtain ⟨_, _ | _⟩ := stack <;> rfl

/-- What happens to the locals of a list does not outlive the list. -/
@[simp] theorem leave_setLocals_enter (stack : BlockStack) (owner : Owner) (locals : Locals) :
    ((stack.enter owner).setLocals locals).leave = stack := rfl

end BlockStack

end BodyCheck
