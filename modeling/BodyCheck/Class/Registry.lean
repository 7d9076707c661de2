import BodyCheck.Class.Basic

/-!
# The classes a unit sees

Classes of the unit itself are found by their name, and imported classes by their name together
with the alias of their import.

## Main definitions

* `Registry` — the classes, each under its key.
* `Registry.key` — the text a class is kept under.
* `Registry.register`, `Registry.registerImported`, `Registry.lookup`.

## Design notes

An imported class is kept under `alias.Name`.  A later registration under a key replaces an
earlier one, whichever of the two ways the key came about.
-/

namespace BodyCheck

/-- The classes visible to a unit, the latest registration first. -/
structure Registry where
  entries : List (String × ClassDef)
deriving DecidableEq, Repr, Inhabited

namespace Registry

/-- The registry without classes. -/
def empty : Registry :=
  ⟨[]⟩

/-- The text that a class is kept under: its name, behind the alias of its import if it has one. -/
def key : Option String → String → String
  | none, name => name
  | some importAlias, name => importAlias ++ "." ++ name

/-- Keeps a class under a key. -/
def insert (registry : Registry) (key : String) (cls : ClassDef) : Registry :=
  ⟨(key, cls) :: registry.entries⟩

/-- Makes a class of the unit itself known. -/
def register (registry : Registry) (cls : ClassDef) : Registry :=
  registry.insert (key none cls.name) cls

/-- Makes a class known that was imported under an alias. -/
def registerImported (registry : Registry) (importAlias : String) (cls : ClassDef) : Registry :=
  registry.insert (key (some importAlias) cls.name) cls

/-- The class kept under a key. -/
def find? (registry : Registry) (key : String) : Option ClassDef :=
  registry.entries.lookup key

/-- The class of this name, in the unit itself or in the import with the given alias. -/
def lookup (registry : Registry) (importAlias : Option String) (name : String) :
    Option ClassDef :=
  registry.find? (key importAlias name)

@[simp] theorem find?_empty (k : String) : empty.find? k = none := rfl

/-- The latest class under a key hides the earlier ones, and those under other keys stay. -/
@[simp] theorem find?_insert (registry : Registry) (k l : String) (cls : ClassDef) :
    (registry.insert k cls).find? l = if l = k then some cls else registry.find? l := by
  by_cases h : l = k <;> simp [find?, insert, List.lookup_cons, h, beq_false_of_ne]

end Registry

end BodyCheck
