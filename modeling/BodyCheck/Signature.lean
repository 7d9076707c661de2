import BodyCheck.Ty.Conversion

/-!
# Signatures and overload resolution

A function is declared with one or more signatures.  A call picks one of them by the types of
its arguments.

## Main definitions

* `Signature` — parameter types and a return type.
* `Signature.accepts` — whether an argument list may be passed.
* `Signature.resolve` — the signature of an overloaded function that a call picks.

## Design notes

Resolution looks at every signature at once.  A signature whose parameters are the argument
types themselves wins, and the first such one if there are several; otherwise the call must be
accepted, by conversion, by exactly one signature.
-/

namespace BodyCheck

/-- The parameter types and the return type of one overload of a function. -/
structure Signature where
  params : List Ty
  returns : Ty
deriving DecidableEq, Repr, Inhabited

/-- Why a call picks no signature. -/
inductive OverloadError
  | noMatch
  | ambiguous
deriving DecidableEq, Repr, Inhabited

namespace Signature

/-- The name of a signature in messages. -/
def text (signature : Signature) : String :=
  "function (" ++ String.intercalate ", " (signature.params.map Ty.text) ++ ") : "
    ++ signature.returns.text

/-- Whether the arguments have exactly the parameter types. -/
def matchesExactly (signature : Signature) (args : List Ty) : Bool :=
  signature.params.isEqv args Ty.same

/-- Whether there is one argument for each parameter and each converts to its parameter. -/
def accepts (signature : Signature) (args : List Ty) : Bool :=
  signature.params.isEqv args fun param arg => arg.convertsTo param

/-- The signature that a call with these argument types picks. -/
def resolve (overloads : List Signature) (args : List Ty) : Except OverloadError Signature :=
  match overloads.find? (·.matchesExactly args) with
  | some exact => .ok exact
  | none =>
    match overloads.filter (·.accepts args) with
    | [] => .error .noMatch
    | [only] => .ok only
    | _ :: _ :: _ => .error .ambiguous

/-- An exact match is a special case of acceptance. -/
theorem accepts_of_matchesExactly {signature : Signature} {args : List Ty}
    (h : signature.matchesExactly args = true) : signature.accepts args = true := by
  obtain ⟨params, returns⟩ := signature
  simp only [matchesExactly, accepts] at h ⊢
  induction params generalizing args with
  | nil => cases args <;> simp_all [List.isEqv]
  | cons param params ih =>
    cases args with
    | nil => simp [List.isEqv] at h
    | cons arg args =>
      simp only [List.isEqv, Bool.and_eq_true] at h ⊢
      exact ⟨Ty.convertsTo_of_same (Ty.same_comm param arg ▸ h.1), ih h.2⟩

end Signature

end BodyCheck
