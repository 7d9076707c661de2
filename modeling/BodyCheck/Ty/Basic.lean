/-!
# Types

The static types of expressions.  The type of an object remembers the name of its class and the
names of the superclasses of that class, which is all that typing ever asks about a class;
members are found on the class itself.

## Main definitions

* `Lineage` — a class name and the names of its superclasses, nearest first.
* `Ty` — a static type.
* `Ty.nominal` — a type with nothing left of its classes but their names.
* `Ty.same` — equality of types, which tells two classes apart by their names only.
* `Ty.orUndefined` — the type of a value that may be missing, never wrapped twice.
* `Ty.indexed?` — the type of an element.
* `Ty.text` — the name of a type as it appears in messages and in structural forms.
-/

namespace BodyCheck

/-- A class as typing sees it: its name and the names of its superclasses, nearest first. -/
structure Lineage where
  name : String
  ancestors : List String
deriving DecidableEq, Repr, Inhabited

namespace Lineage

/-- A class is a subclass of every class that carries its own name or that of an ancestor. -/
def isSubclassOf (sub sup : Lineage) : Bool :=
  sup.name ∈ sub.name :: sub.ancestors

/-- A class is below another just if it has its name or one of its ancestors has. -/
theorem isSubclassOf_iff {sub sup : Lineage} :
    sub.isSubclassOf sup = true ↔ sup.name = sub.name ∨ sup.name ∈ sub.ancestors := by
  simp [isSubclassOf]

/-- Classes of the same name are below each other, whatever their ancestors are. -/
theorem isSubclassOf_of_name_eq {sub sup : Lineage} (h : sub.name = sup.name) :
    sub.isSubclassOf sup = true :=
  isSubclassOf_iff.2 (.inl h.symm)

end Lineage

/-- A static type. -/
inductive Ty
  | void
  | null
  | boolean
  | int
  | number
  | string
  /-- A value of unchecked type. -/
  | variant
  /-- A value of type `inner` that may be missing. -/
  | maybeUndefined (inner : Ty)
  /-- An instance of a class. -/
  | object (cls : Lineage)
  | array (element : Ty)
  /-- A hash object from strings to `element`. -/
  | map (element : Ty)
deriving DecidableEq, Repr, Inhabited

namespace Ty

/-- The type with nothing left of its classes but their names. -/
def nominal : Ty → Ty
  | maybeUndefined inner => maybeUndefined inner.nominal
  | object cls => object ⟨cls.name, []⟩
  | array element => array element.nominal
  | map element => map element.nominal
  | t => t

/-- Equality of types; two object types are equal when their classes have the same name. -/
def same (a b : Ty) : Bool :=
  a.nominal = b.nominal

/-- Types are the same just if they agree in everything but the ancestors of the classes in them. -/
theorem same_iff {a b : Ty} : a.same b = true ↔ a.nominal = b.nominal := by
  simp [same]

@[simp] theorem same_self (t : Ty) : t.same t = true :=
  same_iff.2 rfl

theorem same_comm (a b : Ty) : a.same b = b.same a := by
  simp [same, eq_comm]

/-- Types that are the same as a third are the same. -/
theorem same_trans {a b c : Ty} (hab : a.same b = true) (hbc : b.same c = true) :
    a.same c = true :=
  same_iff.2 ((same_iff.1 hab).trans (same_iff.1 hbc))

/-- Whether nothing is ever produced at this type. -/
def isVoid : Ty → Bool
  | void => true
  | _ => false

/-- Whether this is the type of the null literal. -/
def isNull : Ty → Bool
  | null => true
  | _ => false

/-- Whether this is one of the two types of numbers. -/
def isNumeric : Ty → Bool
  | int | number => true
  | _ => false

/-- The type of a value once it is known not to be missing: one wrapper is taken off. -/
def defined : Ty → Ty
  | maybeUndefined inner => inner
  | t => t

/-- The type of a value of type `t` that may be missing; a type that says so already is kept. -/
def orUndefined : Ty → Ty
  | maybeUndefined inner => maybeUndefined inner
  | t => maybeUndefined t

/-- A type is made possibly undefined only once. -/
@[simp] theorem orUndefined_orUndefined (t : Ty) : t.orUndefined.orUndefined = t.orUndefined := by
  cases t <;> rfl

/-- Taking undefined out again comes to taking it out of the type itself. -/
theorem defined_orUndefined (t : Ty) : t.orUndefined.defined = t.defined := by
  cases t <;> rfl

/-- The type of what is found under a key of a value of type `t`, if it can be indexed at all:
an element of a container may be missing, and nothing is known about the parts of a variant. -/
def indexed? (t : Ty) : Option Ty :=
  match t.defined with
  | array element | map element => some element.orUndefined
  | variant => some variant
  | _ => none

/-- The name of a type. -/
def text : Ty → String
  | void => "void"
  | null => "null"
  | boolean => "boolean"
  | int => "int"
  | number => "number"
  | string => "string"
  | variant => "variant"
  | maybeUndefined inner => "MayBeUndefined.<" ++ inner.text ++ ">"
  | object cls => cls.name
  | array element => element.text ++ "[]"
  | map element => "Map.<" ++ element.text ++ ">"

theorem text_maybeUndefined (inner : Ty) :
    (maybeUndefined inner).text = "MayBeUndefined.<" ++ inner.text ++ ">" := rfl

theorem text_array (element : Ty) : (array element).text = element.text ++ "[]" := rfl

theorem text_map (element : Ty) : (map element).text = "Map.<" ++ element.text ++ ">" := rfl

/-- The name of a type tells nothing about the superclasses of its classes. -/
@[simp] theorem text_nominal (t : Ty) : t.nominal.text = t.text := by
  induction t with
  | maybeUndefined inner ih => exact congrArg (fun name => "MayBeUndefined.<" ++ name ++ ">") ih
  | array element ih => exact congrArg (· ++ "[]") ih
  | map element ih => exact congrArg (fun name => "Map.<" ++ name ++ ">") ih
  | _ => rfl

/-- Equal types have the same name. -/
theorem text_eq_of_same {a b : Ty} (h : a.same b = true) : a.text = b.text := by
  rw [← text_nominal a, same_iff.1 h, text_nominal b]

end Ty

end BodyCheck
