import BodyCheck.Signature

/-!
# Classes

A class has a name, members of its own, and at most one superclass, which is complete before
the class itself is written down.

## Main definitions

* `MemberType` — a field with its type, or a function with its overloads.
* `ClassDef` — a class.
* `ClassDef.ownMember?` and `ClassDef.member?` — look a member up, without and with inheritance.
* `ClassDef.lineage` — the class as typing sees it.

## Design notes

The first member of a name is the one that counts, and a member of the class itself hides an
inherited one.  Classes are told apart by name alone, here as in `Ty.same`.
-/

namespace BodyCheck

/-- What a member of a class is. -/
inductive MemberType
  | field (ty : Ty)
  | function (overloads : List Signature)
deriving DecidableEq, Repr, Inhabited

/-- The overloads of a member that is a function. -/
def MemberType.overloads? : MemberType → Option (List Signature)
  | .field _ => none
  | .function overloads => some overloads

/-- A named member of a class. -/
structure Member where
  name : String
  type : MemberType
deriving DecidableEq, Repr, Inhabited

/-- A class, either without a superclass or derived from one. -/
inductive ClassDef
  | root (name : String) (members : List Member)
  | derived (name : String) (members : List Member) (parent : ClassDef)
deriving DecidableEq, Repr, Inhabited

namespace ClassDef

/-- The name of the class. -/
def name : ClassDef → String
  | root name _ => name
  | derived name _ _ => name

/-- The members written in the class itself. -/
def members : ClassDef → List Member
  | root _ members => members
  | derived _ members _ => members

/-- The superclass, if there is one. -/
def parent? : ClassDef → Option ClassDef
  | root _ _ => none
  | derived _ _ parent => some parent

/-- Whether two definitions carry the same name, and so stand for the same class. -/
def same (c d : ClassDef) : Bool :=
  c.name == d.name

/-- Whether `d` is the class itself or one of its superclasses. -/
def isSubclassOf (c d : ClassDef) : Bool :=
  c.same d ||
    match c with
    | root _ _ => false
    | derived _ _ parent => parent.isSubclassOf d

/-- The names of the superclasses, nearest first. -/
def ancestors : ClassDef → List String
  | root _ _ => []
  | derived _ _ parent => parent.name :: parent.ancestors

/-- The class as typing sees it. -/
def lineage (c : ClassDef) : Lineage :=
  ⟨c.name, c.ancestors⟩

/-- The type of the instances of the class. -/
def instanceTy (c : ClassDef) : Ty :=
  .object c.lineage

/-- The member of this name that is written in the class itself. -/
def ownMember? (c : ClassDef) (name : String) : Option MemberType :=
  (c.members.find? (·.name == name)).map (·.type)

/-- The member of this name, of the class itself or of its nearest superclass that has one. -/
def member? (c : ClassDef) (name : String) : Option MemberType :=
  match c.ownMember? name with
  | some found => some found
  | none =>
    match c with
    | root _ _ => none
    | derived _ _ parent => parent.member? name

/-- The overloads of the constructor that the class itself declares. -/
def constructorOverloads? (c : ClassDef) : Option (List Signature) :=
  (c.ownMember? "constructor").bind MemberType.overloads?

/-- Following superclasses and looking among the ancestors' names come to the same. -/
theorem isSubclassOf_eq (c d : ClassDef) :
    c.isSubclassOf d = c.lineage.isSubclassOf d.lineage := by
  rw [Bool.eq_iff_iff, Lineage.isSubclassOf_iff]
  induction c with
  | root name members =>
    rw [isSubclassOf, same, Bool.or_false, beq_iff_eq]
    exact ⟨fun h => .inl h.symm, fun h => h.elim Eq.symm fun h => nomatch h⟩
  | derived name members parent ih =>
    rw [isSubclassOf, same, Bool.or_eq_true, ih, beq_iff_eq]
    simp [lineage, ancestors, eq_comm]

end ClassDef

end BodyCheck
