import BodyCheck.Token
import BodyCheck.Ty.Basic

/-!
# Owners of blocks

Every nested statement list belongs to a statement, and what a jump or a case inside it may do
depends on the kinds and labels of the owners around it.

## Main definitions

* `Breakable` — the statements that a break may leave and a label may name.
* `Owner` — what a statement list belongs to.
* `JumpKind` — break or continue.
* `JumpKind.mayLeave` — which owners a jump may aim at.
-/

namespace BodyCheck

/-- The statements that a break may leave: the loops, and a switch with the type of its
subject, as far as it is known. -/
inductive Breakable
  | doWhile
  | forIn
  | forLoop
  | whileLoop
  | switch (subject : Option Ty)
deriving DecidableEq, Repr, Inhabited

/-- Whether the statement may be continued as well as left. -/
def Breakable.isLoop : Breakable → Bool
  | switch _ => false
  | _ => true

/-- What a statement list belongs to. -/
inductive Owner
  /-- The list is the body of the function itself. -/
  | function
  /-- The list is the body of a loop or switch. -/
  | breakable (kind : Breakable) (label : Option Token)
  /-- The list is an arm of an if statement. -/
  | branch
  /-- The list is a part of a try statement. -/
  | guarded
deriving DecidableEq, Repr, Inhabited

namespace Owner

/-- The label written on the owner. -/
def label? : Owner → Option Token
  | breakable _ label => label
  | _ => none

/-- Whether the owner is a loop. -/
def isLoop : Owner → Bool
  | breakable kind _ => kind.isLoop
  | _ => false

/-- Whether the owner is a switch. -/
def isSwitch : Owner → Bool
  | breakable (.switch _) _ => true
  | _ => false

/-- The type of the subject of a switch; the outer option tells whether the owner is one. -/
def subject? : Owner → Option (Option Ty)
  | breakable (.switch subject) _ => some subject
  | _ => none

/-- Whether the owner carries a label of this name. -/
def isLabelled (owner : Owner) (name : String) : Bool :=
  owner.label?.any (·.value == name)

end Owner

/-- The two kinds of jump inside a function. -/
inductive JumpKind
  | breaks
  | continues
deriving DecidableEq, Repr, Inhabited

/-- Whether a jump of this kind may aim at a list with this owner. -/
def JumpKind.mayLeave : JumpKind → Owner → Bool
  | breaks, owner => owner.isLoop || owner.isSwitch
  | continues, owner => owner.isLoop

end BodyCheck
