import BodyCheck.Proofs.Subtyping

/-!
# Types of values that may be missing are wider

What converts to a type also converts to the type of its values that may be missing, and remains
convertible if it may be missing itself.  The exceptions go back to void, which converts to nothing
but itself; and how null, as it converts to itself, converts to a wrapped type is left open.

## Main definitions

* `Ty.Unwidened` — the conversions for which this is not claimed of the raw wrapper.

## Main statements

* `Ty.convertsTo_maybeUndefined` — the expected type may be wrapped.
* `Ty.widened_by_wrapping` — so may both types, with and without normalization.
* `Ty.missing_void_not_widened` — a missing void value is a variant, but no variant that may be
  missing.

## Design notes

Wrapping both types takes a conversion below a wrapper, where void converts to nothing but itself.
A missing void value is no void value and so converts to a variant; but as a variant that may be
missing it would have to be a variant when it is there.  The exceptions are the least relation with
which the induction goes through: under a wrapper on either side it is asked of the types inside.
-/

namespace BodyCheck.Ty

/-- The conversions of void and null to themselves and of a missing void value to a variant, under
any number of wrappers around both types. -/
inductive Unwidened : Ty → Ty → Prop
  | void : Unwidened void void
  | null : Unwidened null null
  | missingVoid : Unwidened (maybeUndefined void) variant
  | wrapped {a b : Ty} (h : Unwidened a b) : Unwidened (maybeUndefined a) (maybeUndefined b)

variable {a b : Ty}

/-- What converts to a type converts to the type of its values that may be missing. -/
theorem convertsTo_maybeUndefined (h : a.convertsTo b = true) (widened : ¬ Unwidened a b) :
    a.convertsTo (maybeUndefined b) = true := by
  induction a generalizing b with
  | null =>
    rcases null_convertsTo_iff.mp h with admits | rfl
    · exact admits
    · exact absurd .null widened
  | void =>
    obtain rfl := void_convertsTo_iff.mp h
    exact absurd .void widened
  | maybeUndefined s ih =>
    show s.convertsTo b = true
    rcases maybeUndefined_convertsTo h with rfl | ⟨inner, rfl, inside⟩
    · apply convertsTo_variant_iff.mpr
      rintro rfl
      exact widened .missingVoid
    · exact ih inside fun lost => widened (.wrapped lost)
  | _ => exact h

/-- An expected type that is wrapped already is kept by normalization, and any other is wrapped. -/
theorem convertsTo_orUndefined (h : a.convertsTo b = true) (notVoid : b ≠ void)
    (notNull : ¬ (a = null ∧ b = null)) (notMissing : ¬ (a = maybeUndefined void ∧ b = variant)) :
    a.convertsTo b.orUndefined = true := by
  -- Of the exceptions only these have an expected type without a wrapper.
  have widened (bare : ∀ inner, b ≠ maybeUndefined inner) : ¬ Unwidened a b := by
    intro lost
    cases lost with
    | void => exact notVoid rfl
    | null => exact notNull ⟨rfl, rfl⟩
    | missingVoid => exact notMissing ⟨rfl, rfl⟩
    | wrapped inner => exact bare _ rfl
  cases b with
  | maybeUndefined inner => exact h
  | _ => exact convertsTo_maybeUndefined h (widened nofun)

/-- Below its wrapper an expected type takes what it takes as a whole, unless that is wrapped. -/
theorem convertsTo_of_convertsTo_maybeUndefined (h : a.convertsTo (maybeUndefined b) = true)
    (bare : a.defined = a) : a.convertsTo b = true := by
  by_cases isNull : a = null
  · subst isNull
    exact null_convertsTo_iff.mpr (.inl h)
  · have notVoid : a ≠ void := by
      rintro rfl
      cases h
    rwa [convertsTo_maybeUndefined_of_ne isNull notVoid, bare] at h

/-- A conversion goes on when both types may be undefined, but for the two cases of void. -/
theorem orUndefined_convertsTo_orUndefined (h : a.convertsTo b = true) (notVoid : b ≠ void)
    (notMissing : ¬ (a = maybeUndefined void ∧ b = variant)) :
    a.orUndefined.convertsTo b.orUndefined = true := by
  have wrapped (bare : a.defined = a) : (maybeUndefined a).convertsTo b.orUndefined = true := by
    cases b with
    | maybeUndefined inner =>
      show a.convertsTo inner = true
      exact convertsTo_of_convertsTo_maybeUndefined h bare
    | _ => exact h
  cases a with
  | maybeUndefined s => exact convertsTo_orUndefined h notVoid (nofun) notMissing
  | _ => exact wrapped rfl

/-- **Widening.**  If a type converts to another, which is not void, it converts to the other one
wrapped unless that is left out, and wrapped it always converts to the other one wrapped.  The same
holds if a wrapper around a wrapper is left out, and then there is no exception but a missing void
value as a variant.  Nothing is said of how null, as it converts to itself, converts to a wrapped
type. -/
theorem widened_by_wrapping (h : a.convertsTo b = true) (notVoid : b ≠ void) :
    (¬ Unwidened a b → a.convertsTo (maybeUndefined b) = true) ∧
    (maybeUndefined a).convertsTo (maybeUndefined b) = true ∧
    (¬ (a = maybeUndefined void ∧ b = variant) →
      (¬ (a = null ∧ b = null) → a.convertsTo b.orUndefined = true) ∧
      a.orUndefined.convertsTo b.orUndefined = true) := by
  refine ⟨convertsTo_maybeUndefined h, h, fun notMissing => ⟨fun notNull => ?_, ?_⟩⟩
  · exact convertsTo_orUndefined h notVoid notNull notMissing
  · exact orUndefined_convertsTo_orUndefined h notVoid notMissing

/-- An object that may be missing converts to one of its superclass that may be missing in two ways,
also if it or the other may be missing in one way more; only the raw wrapper tells these apart. -/
theorem widened_by_wrapping_of_leaf :
    let base : ClassDef := .root "Base" []
    let leaf : ClassDef := .derived "Leaf" [] base
    let a := maybeUndefined leaf.instanceTy
    let b := maybeUndefined (maybeUndefined base.instanceTy)
    a.convertsTo b = true ∧ b ≠ void ∧ ¬ Unwidened a b ∧
      a.convertsTo (maybeUndefined b) = true ∧
      (maybeUndefined a).convertsTo (maybeUndefined b) = true ∧
      a.convertsTo b.orUndefined = true ∧
      a.orUndefined.convertsTo b.orUndefined = true ∧
      maybeUndefined b ≠ b.orUndefined := by
  intro base leaf a b
  have converts : a.convertsTo b = true := by decide +kernel
  have notVoid : b ≠ void := by decide +kernel
  have widened : ¬ Unwidened (maybeUndefined (object ⟨"Leaf", ["Base"]⟩))
      (maybeUndefined (maybeUndefined (object ⟨"Base", []⟩))) := by
    rintro (_ | _ | _ | ⟨⟨⟩⟩)
  obtain ⟨expected, both, normalized⟩ := widened_by_wrapping converts notVoid
  obtain ⟨expectedNormalized, bothNormalized⟩ := normalized (by decide +kernel)
  exact ⟨converts, notVoid, widened, expected widened, both,
    expectedNormalized (by decide +kernel), bothNormalized, by decide +kernel⟩

/-- A missing void value converts to a variant, but not to a variant that may be missing, with or
without normalization. -/
theorem missing_void_not_widened :
    variant ≠ void ∧ (maybeUndefined void).convertsTo variant = true ∧
      (maybeUndefined void).convertsTo (maybeUndefined variant) = false ∧
      (maybeUndefined void).convertsTo variant.orUndefined = false ∧
      (maybeUndefined void).orUndefined.convertsTo variant.orUndefined = false := by
  decide +kernel

end BodyCheck.Ty
