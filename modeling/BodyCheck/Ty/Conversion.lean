import BodyCheck.Ty.Basic

/-!
# Conversion between types

Which values may be handed over where another type is expected.

## Main definitions

* `Ty.acceptsNull` — whether the null literal is a value of the type.
* `Ty.convertsTo` — whether a value of one type may stand where the other is expected.

## Design notes

`convertsTo` recurses on the expected type.  Equal types always convert; beyond that nothing
converts to or from `void`, everything else converts to `variant`, the two number types convert
into each other, and a subclass converts to its superclasses.  A value that may be missing
converts only where a missing value is expected.  Containers do not vary with their elements.
The null literal goes by `acceptsNull` alone, so it converts to `maybeUndefined t` exactly when
`t` admits null, even for `t = null`.
-/

namespace BodyCheck.Ty

/-- Whether null is a value of the type: strings, objects, containers and variants admit it. -/
def acceptsNull : Ty → Bool
  | string | object _ | array _ | map _ | variant => true
  | maybeUndefined inner => inner.acceptsNull
  | _ => false

/-- Whether a value of type `source` may stand where the second type is expected. -/
def convertsTo (source : Ty) : Ty → Bool
  | void => source.isVoid
  | null => source.isNull
  | boolean => source.same boolean
  | int => source.isNumeric
  | number => source.isNumeric
  | string => source.same string || source.isNull
  | variant => !source.isVoid
  | maybeUndefined inner =>
    match source with
    | void => false
    | null => inner.acceptsNull
    | maybeUndefined s => s.convertsTo inner
    | s => s.convertsTo inner
  | object d =>
    match source with
    | object c => c.isSubclassOf d
    | s => s.isNull
  | array element => source.same (array element) || source.isNull
  | map element => source.same (map element) || source.isNull

/-- A type converts to every type that is the same. -/
theorem convertsTo_of_same {a b : Ty} (h : a.same b = true) : a.convertsTo b = true := by
  rw [same_iff] at h
  induction b generalizing a with
  | maybeUndefined inner ih => cases a <;> simp_all [nominal, convertsTo]
  | object d =>
    cases a <;> simp_all [nominal, convertsTo]
    exact Lineage.isSubclassOf_of_name_eq h
  | _ => cases a <;> simp_all [nominal, convertsTo, same_iff, isVoid, isNull, isNumeric]

@[simp] theorem convertsTo_self (t : Ty) : t.convertsTo t = true :=
  convertsTo_of_same (same_self t)

end BodyCheck.Ty
