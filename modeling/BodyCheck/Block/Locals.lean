/-!
# Local variables and what is known about their values

Analysis follows, for every local variable of a function, whether it has certainly been assigned
at the point reached so far.

## Main definitions

* `Status` — what is known about one variable.
* `Locals` — what is known about all declared variables.
* `Locals.declare`, `Locals.assign?` and `Locals.status?`.

## Design notes

The view of `Locals` is `status?`: `status?_declare` says what declaring does to it, and
assigning is declaring again.  The latest entry for a name is the one that counts.
-/

namespace BodyCheck

/-- Whether a variable has certainly been assigned. -/
inductive Status
  | unset
  | set
deriving DecidableEq, Repr, Inhabited

/-- The declared variables of a function, the latest entry first. -/
structure Locals where
  entries : List (String × Status)
deriving DecidableEq, Repr, Inhabited

namespace Locals

/-- No variables. -/
def empty : Locals :=
  ⟨[]⟩

/-- Makes a name a local variable of the given status, whether or not it was one before. -/
def declare (locals : Locals) (name : String) (status : Status) : Locals :=
  ⟨(name, status) :: locals.entries⟩

/-- The status of a variable, if it is declared. -/
def status? (locals : Locals) (name : String) : Option Status :=
  locals.entries.lookup name

/-- The variables after an assignment to one of them; only a declared one can be assigned. -/
def assign? (locals : Locals) (name : String) : Option Locals :=
  (locals.status? name).map fun _ => locals.declare name .set

/-- Declares several variables, one after the other. -/
def declareAll (locals : Locals) (decls : List (String × Status)) : Locals :=
  decls.foldl (fun locals decl => locals.declare decl.1 decl.2) locals

/-- Whether the same variables are declared on both sides, with the same statuses. -/
def agrees (a b : Locals) : Bool :=
  (a.entries ++ b.entries).all fun entry => a.status? entry.1 == b.status? entry.1

@[simp] theorem status?_empty (name : String) : empty.status? name = none := rfl

/-- A declaration is found under its own name, and under any other name what was found before. -/
@[simp] theorem status?_declare (locals : Locals) (name other : String) (status : Status) :
    (locals.declare name status).status? other
      = if other = name then some status else locals.status? other := by
  by_cases h : other = name <;> simp [status?, declare, List.lookup_cons, h, beq_false_of_ne]

/-- An assignment fails just if there is no variable of the name. -/
theorem assign?_eq_none_iff {locals : Locals} {name : String} :
    locals.assign? name = none ↔ locals.status? name = none := by
  simp [assign?]

/-- An assignment sets its variable and touches no other. -/
theorem status?_of_assign?_eq_some {locals after : Locals} {name : String}
    (h : locals.assign? name = some after) (other : String) :
    after.status? other = if other = name then some .set else locals.status? other := by
  obtain ⟨_, _, rfl⟩ := Option.map_eq_some_iff.1 h
  exact status?_declare ..

/-- What is known about a variable is written down in one of the entries. -/
theorem mem_entries_of_status? {locals : Locals} {name : String} {status : Status}
    (h : locals.status? name = some status) : (name, status) ∈ locals.entries := by
  obtain ⟨before, after, split, -⟩ := List.lookup_eq_some_iff.1 h
  simp [split]

/-- Agreement is agreement on the status of every name. -/
theorem agrees_iff {a b : Locals} :
    a.agrees b = true ↔ ∀ name, a.status? name = b.status? name := by
  simp only [agrees, List.all_eq_true, beq_iff_eq, List.mem_append]
  refine ⟨fun h name => ?_, fun h entry _ => h entry.1⟩
  cases ha : a.status? name with
  | some status => exact ha ▸ h _ (.inl (mem_entries_of_status? ha))
  | none =>
    cases hb : b.status? name with
    | none => rfl
    | some status => exact ha ▸ hb ▸ h _ (.inr (mem_entries_of_status? hb))

end Locals

end BodyCheck
