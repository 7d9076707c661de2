import BodyCheck.Proofs.Hierarchy

/-!
# Conversion is a preorder

Types convert into themselves, and what converts into a type converts into all that the type
converts into, provided that names tell classes apart and that no void value may be missing.

## Main definitions

* `Ty.BuiltOver` — types whose classes are among given ones.
* `Ty.WrapsNoVoid` — types of values that are there when they are not missing.

## Main statements

* `Ty.convertsTo_trans` — conversion is transitive.
* `Ty.conversion_preorder` — subclasses are ordered and types preordered.

## Design notes

Conversion recurses on the expected type, and so does the proof that it is transitive; the other two
types have to be arbitrary.  What is peculiar in the definition has a lemma each: `void` is apart
from all else, whatever takes the variant takes everything but void, and null goes by `acceptsNull`
alone.

Void is left out below a wrapper because a missing void value would convert to a variant, and a
variant converts to a variant that may be missing, to which a missing void value does not convert.
-/

namespace BodyCheck.Ty

/-- All classes in the type are among the given ones. -/
def BuiltOver (classes : Set ClassDef) : Ty → Prop
  | maybeUndefined inner => inner.BuiltOver classes
  | object cls => ∃ c ∈ classes, cls = c.lineage
  | array element => element.BuiltOver classes
  | map element => element.BuiltOver classes
  | _ => True

/-- Under the wrappers of a type that has any there is something other than void. -/
def WrapsNoVoid : Ty → Prop
  | maybeUndefined inner => inner ≠ void ∧ inner.WrapsNoVoid
  | _ => True

variable {a b c : Ty}

/-! ## Single types -/

/-- Nothing but void converts to void. -/
theorem convertsTo_void_iff : a.convertsTo void = true ↔ a = void := by
  cases a <;> simp [convertsTo, isVoid]

/-- Nothing but null converts to null. -/
theorem convertsTo_null_iff : a.convertsTo null = true ↔ a = null := by
  cases a <;> simp [convertsTo, isNull]

/-- Void converts to nothing else. -/
theorem void_convertsTo_iff : void.convertsTo a = true ↔ a = void := by
  cases a <;> simp [convertsTo, isVoid, isNull, isNumeric, same, nominal]

/-- Everything but void converts to a variant. -/
theorem convertsTo_variant_iff : a.convertsTo variant = true ↔ a ≠ void := by
  cases a <;> simp [convertsTo, isVoid]

/-- Null converts to what admits it, and to its own type. -/
theorem null_convertsTo_iff : null.convertsTo a = true ↔ a.acceptsNull = true ∨ a = null := by
  cases a <;> simp [convertsTo, acceptsNull, isVoid, isNull, isNumeric, same, nominal]

/-- To a type of values that may be missing everything but null converts as its values do that are
not missing. -/
theorem convertsTo_maybeUndefined_of_ne (notNull : a ≠ null) (notVoid : a ≠ void) :
    a.convertsTo (maybeUndefined b) = a.defined.convertsTo b := by
  cases a with
  | null => exact absurd rfl notNull
  | void => exact absurd rfl notVoid
  | _ => rfl

/-- Values that may be missing convert to what may be missing, and to variants. -/
theorem maybeUndefined_convertsTo (h : (maybeUndefined a).convertsTo b = true) :
    b = variant ∨ ∃ inner, b = maybeUndefined inner ∧ a.convertsTo inner = true := by
  cases b with
  | variant => exact .inl rfl
  | maybeUndefined inner => exact .inr ⟨inner, rfl, h⟩
  | _ => simp [convertsTo, isVoid, isNull, isNumeric, same, nominal] at h

/-! ## Equal types -/

@[simp] theorem nominal_nominal (t : Ty) : t.nominal.nominal = t.nominal := by
  induction t with
  | maybeUndefined inner ih => exact congrArg maybeUndefined ih
  | array element ih => exact congrArg array ih
  | map element ih => exact congrArg map ih
  | _ => rfl

theorem same_nominal (a b : Ty) : a.same b.nominal = a.same b := by
  rw [Bool.eq_iff_iff, same_iff, same_iff, nominal_nominal]

@[simp] theorem acceptsNull_nominal (t : Ty) : t.nominal.acceptsNull = t.acceptsNull := by
  induction t with
  | maybeUndefined inner ih => exact ih
  | _ => rfl

@[simp] theorem acceptsNull_defined (t : Ty) : t.defined.acceptsNull = t.acceptsNull := by
  cases t <;> rfl

/-- What converts to a type does not depend on the superclasses of its classes. -/
theorem convertsTo_nominal (a b : Ty) : a.convertsTo b.nominal = a.convertsTo b := by
  induction b generalizing a with
  | maybeUndefined inner ih => cases a <;> simp [nominal, convertsTo, ih]
  | object cls => cases a <;> rfl
  | array element => exact congrArg (· || a.isNull) (same_nominal a (array element))
  | map element => exact congrArg (· || a.isNull) (same_nominal a (map element))
  | _ => rfl

/-- The same converts to equal types. -/
theorem convertsTo_congr (h : b.same c = true) : a.convertsTo b = a.convertsTo c := by
  rw [← convertsTo_nominal, same_iff.mp h, convertsTo_nominal]

/-! ## Null and variants -/

/-- What a type that admits null converts to admits null. -/
theorem acceptsNull_of_convertsTo (admits : a.acceptsNull = true) (h : a.convertsTo b = true) :
    b.acceptsNull = true := by
  induction b generalizing a with
  | maybeUndefined inner ih =>
    have notNull : a ≠ null := by
      rintro rfl
      cases admits
    have notVoid : a ≠ void := by
      rintro rfl
      cases admits
    rw [convertsTo_maybeUndefined_of_ne notNull notVoid] at h
    exact ih (a.acceptsNull_defined.trans admits) h
  | string | object | array | map | variant => rfl
  | void | null | boolean | int | number =>
    cases a <;> simp [convertsTo, acceptsNull, isVoid, isNull, isNumeric, same, nominal] at admits h

/-- Taking undefined out of a type that does not wrap void gives one that is not void. -/
theorem WrapsNoVoid.defined (h : a.WrapsNoVoid) (notVoid : a ≠ void) :
    a.defined.WrapsNoVoid ∧ a.defined ≠ void := by
  cases a with
  | maybeUndefined inner => exact ⟨h.2, h.1⟩
  | _ => exact ⟨h, notVoid⟩

/-- What takes variants takes everything but void. -/
theorem convertsTo_of_variant_convertsTo (sound : a.WrapsNoVoid) (notVoid : a ≠ void)
    (h : variant.convertsTo c = true) : a.convertsTo c = true := by
  induction c generalizing a with
  | variant => exact convertsTo_variant_iff.mpr notVoid
  | maybeUndefined inner ih =>
    by_cases isNull : a = null
    · rw [isNull]
      exact acceptsNull_of_convertsTo (a := variant) rfl h
    · rw [convertsTo_maybeUndefined_of_ne isNull notVoid]
      obtain ⟨soundDefined, notVoidDefined⟩ := sound.defined notVoid
      exact ih soundDefined notVoidDefined h
  | _ => simp [convertsTo, isVoid, isNull, isNumeric, same, nominal] at h

/-! ## Transitivity -/

/-- Between types of values that may be missing, or of values that may not, the values convert that
are not missing. -/
theorem defined_convertsTo_defined (notNull : a ≠ null) (notVariant : b ≠ variant)
    (h : a.convertsTo b = true) : a.defined.convertsTo b.defined = true := by
  cases b with
  | maybeUndefined inner =>
    have notVoid : a ≠ void := by
      rintro rfl
      cases h
    rwa [convertsTo_maybeUndefined_of_ne notNull notVoid] at h
  | _ =>
    cases a with
    | maybeUndefined inner =>
      rcases maybeUndefined_convertsTo h with isVariant | ⟨_, isMaybe, -⟩
      · exact absurd isVariant notVariant
      · cases isMaybe
    | _ => exact h

/-- A type is built over the classes that it is built over without undefined. -/
theorem BuiltOver.defined {classes : Set ClassDef} (h : a.BuiltOver classes) :
    a.defined.BuiltOver classes := by
  cases a <;> exact h

/-- A type that takes only its equals, or null besides, takes what converts to these. -/
theorem convertsTo_of_same_or_null (hab : a.convertsTo b = true) (hbc : b.convertsTo c = true)
    (same : (b.same c || b.isNull) = true) : a.convertsTo c = true := by
  rcases Bool.or_eq_true_iff.mp same with same | isNull
  · rwa [← convertsTo_congr same]
  · have null : b = null := by
      cases b <;> first | rfl | cases isNull
    rw [null, convertsTo_null_iff] at hab
    rwa [hab, ← null]

/-- Conversion is transitive. -/
theorem convertsTo_trans {classes : Set ClassDef} (coherent : ClassDef.Coherent classes)
    (ha : a.BuiltOver classes) (hb : b.BuiltOver classes) (sound : a.WrapsNoVoid)
    (hab : a.convertsTo b = true) (hbc : b.convertsTo c = true) : a.convertsTo c = true := by
  induction c generalizing a b with
  | void =>
    rw [convertsTo_void_iff] at hbc
    rwa [← hbc]
  | null =>
    rw [convertsTo_null_iff] at hbc
    rwa [← hbc]
  | boolean => exact convertsTo_of_same_or_null hab hbc (Bool.or_eq_true_iff.mpr (.inl hbc))
  | string => exact convertsTo_of_same_or_null hab hbc hbc
  | array element => exact convertsTo_of_same_or_null hab hbc hbc
  | map element => exact convertsTo_of_same_or_null hab hbc hbc
  | int | number =>
    cases b with
    | int | number => exact hab
    | _ => cases hbc
  | variant =>
    rw [convertsTo_variant_iff] at hbc ⊢
    rintro rfl
    exact hbc (void_convertsTo_iff.mp hab)
  | object d =>
    cases b with
    | null => rwa [convertsTo_null_iff.mp hab]
    | object k =>
      cases a with
      | null => rfl
      | object l =>
        obtain ⟨_, memA, rfl⟩ := ha
        obtain ⟨_, memB, rfl⟩ := hb
        exact coherent.isSubclassOf_trans memA memB hab hbc
      | _ => cases hab
    | _ => cases hbc
  | maybeUndefined inner ih =>
    have notVoid : a ≠ void := by
      rintro rfl
      rw [void_convertsTo_iff.mp hab] at hbc
      cases hbc
    by_cases isVariant : b = variant
    · rw [isVariant] at hbc
      exact convertsTo_of_variant_convertsTo sound notVoid hbc
    by_cases isNull : a = null
    · subst isNull
      rcases null_convertsTo_iff.mp hab with admits | rfl
      · exact null_convertsTo_iff.mpr (.inl (acceptsNull_of_convertsTo admits hbc))
      · exact hbc
    have notNull : b ≠ null := by
      rintro rfl
      exact isNull (convertsTo_null_iff.mp hab)
    have notVoidB : b ≠ void := by
      rintro rfl
      exact notVoid (convertsTo_void_iff.mp hab)
    rw [convertsTo_maybeUndefined_of_ne notNull notVoidB] at hbc
    rw [convertsTo_maybeUndefined_of_ne isNull notVoid]
    exact ih ha.defined hb.defined (sound.defined notVoid).1
      (defined_convertsTo_defined isNull isVariant hab) hbc

/-- **Conversion is a preorder.**  Where names tell classes apart, being a subclass is a partial
order, and conversion is a preorder on the types over these classes in which no wrapper is around
void. -/
theorem conversion_preorder {classes : Set ClassDef} (coherent : ClassDef.Coherent classes) :
    (∀ c : ClassDef, c.isSubclassOf c = true) ∧
    (∀ c ∈ classes, ∀ d ∈ classes, ∀ e ∈ classes,
      c.isSubclassOf d = true → d.isSubclassOf e = true → c.isSubclassOf e = true) ∧
    (∀ c ∈ classes, ∀ d ∈ classes,
      c.isSubclassOf d = true → d.isSubclassOf c = true → c = d) ∧
    (∀ a : Ty, a.convertsTo a = true) ∧
    ∀ a b c : Ty, a.BuiltOver classes → b.BuiltOver classes → a.WrapsNoVoid →
      a.convertsTo b = true → b.convertsTo c = true → a.convertsTo c = true := by
  refine ⟨?_, ?_, ?_, convertsTo_self, ?_⟩
  · intro c
    exact ClassDef.isSubclassOf_iff.mpr ⟨c, c.mem_chain_self, rfl⟩
  · intro c hc d hd e _ hcd hde
    rw [ClassDef.isSubclassOf_eq] at hcd hde ⊢
    exact coherent.isSubclassOf_trans hc hd hcd hde
  · intro c hc d hd hcd hdc
    exact coherent.isSubclassOf_antisymm hc hd hcd hdc
  · intro a b c ha hb sound hab hbc
    exact convertsTo_trans coherent ha hb sound hab hbc

/-- A value of a class that may be missing converts to one of the superclass of its superclass that
may be missing in two ways, and that to a variant that may be missing. -/
theorem conversion_preorder_of_leaf :
    let base : ClassDef := .root "Base" []
    let middle : ClassDef := .derived "Middle" [] base
    let leaf : ClassDef := .derived "Leaf" [] middle
    let classes : Set ClassDef := {c | c ∈ [base, leaf]}
    let a := maybeUndefined leaf.instanceTy
    let b := maybeUndefined (maybeUndefined base.instanceTy)
    let c := maybeUndefined variant
    ClassDef.Coherent classes ∧ a.BuiltOver classes ∧ b.BuiltOver classes ∧ a.WrapsNoVoid ∧
      a.convertsTo b = true ∧ b.convertsTo c = true ∧ a.convertsTo c = true ∧
      c.convertsTo a = false := by
  intro base middle leaf classes a b c
  have coherent : ClassDef.Coherent classes := by
    show ∀ c ∈ [base, leaf], ∀ d ∈ [base, leaf], ∀ x ∈ c.chain, ∀ y ∈ d.chain,
      x.name = y.name → x = y
    decide +kernel
  have builtA : a.BuiltOver classes := ⟨leaf, List.mem_cons_of_mem _ List.mem_cons_self, rfl⟩
  have builtB : b.BuiltOver classes := ⟨base, List.mem_cons_self, rfl⟩
  have sound : a.WrapsNoVoid := ⟨by decide, trivial⟩
  have hab : a.convertsTo b = true := by decide +kernel
  have hbc : b.convertsTo c = true := by decide +kernel
  exact ⟨coherent, builtA, builtB, sound, hab, hbc,
    (conversion_preorder coherent).2.2.2.2 a b c builtA builtB sound hab hbc, by decide +kernel⟩

end BodyCheck.Ty
