import BodyCheck.Stmt.Construction
import BodyCheck.Stmt.Rule

/-!
# What rules report

Each rule of a statement has one problem, or two, that it can report, and reports it under one
condition.

## Main statements

* `Rule.mem_return?_iff`, `Rule.mem_delete?_iff`, `Rule.mem_switch?_iff`, `Rule.mem_case?_iff`,
  `Rule.mem_assert?_iff`, `Rule.mem_log?_iff`, `Rule.mem_jump?_iff`, `Rule.mem_label?_iff` — which
  problem a rule reports, and when.
* `QualifiedName.resolve_eq_error_iff` — when a class is not found, and what is reported then.
-/

namespace BodyCheck

/-- A type is the same as that of strings just if it is this type. -/
theorem Ty.same_string_iff {ty : Ty} : ty.same .string = true ↔ ty = .string := by
  rw [same_iff]
  cases ty <;> simp [nominal]

namespace Rule

variable {problem : Problem}

/-- A return is wrong just if its type is known and does not convert to the declared one. -/
theorem mem_return?_iff {declared : Ty} {actual : Option Ty} :
    problem ∈ return? declared actual ↔
      ∃ ty, actual = some ty ∧ ty.convertsTo declared = false ∧
        problem = .returnMismatch ty declared := by
  cases actual with
  | none => simp [return?]
  | some ty =>
    cases converts : ty.convertsTo declared <;>
      simp [return?, converts, eq_comm (a := problem)]

/-- Something is wrong with a deletion if it is not of an access by key, or if the type of the key
is known and is not that of strings. -/
theorem mem_delete?_iff {e : Expr} :
    problem ∈ delete? e ↔
      (e.key? = none ∨ ∃ key ty, e.key? = some key ∧ key.ty? = some ty ∧
        ty.defined.same .string = false) ∧ problem = .notDeletable := by
  cases key : e.key? with
  | none => simp [delete?, key, eq_comm (a := problem)]
  | some key' =>
    cases known : key'.ty? with
    | none => simp [delete?, key, known]
    | some ty => cases isString : ty.defined.same .string <;>
        simp [delete?, key, known, isString, eq_comm (a := problem)]

/-- Nothing is wrong with the deletion of an access by a key that is a string or of unknown
type. -/
theorem delete?_eq_none_iff {e : Expr} : delete? e = none ↔
    ∃ key, e.key? = some key ∧ ∀ ty, key.ty? = some ty → ty.defined = .string := by
  rw [delete?]
  cases e.key? with
  | none => simp
  | some key => cases isTy : key.ty? <;> simp [isTy, Ty.same_string_iff]

/-- A subject is wrong just if its type is known and a switch cannot tell its values apart. -/
theorem mem_switch?_iff {subject : Option Ty} :
    problem ∈ switch? subject ↔
      ∃ ty, subject = some ty ∧ isSwitchable ty = false ∧ problem = .notSwitchable := by
  cases subject with
  | none => simp [switch?]
  | some ty =>
    cases switchable : isSwitchable ty <;>
      simp [switch?, switchable, eq_comm (a := problem)]

theorem switch?_eq_none_iff {subject : Option Ty} :
    switch? subject = none ↔ ∀ ty, subject = some ty → isSwitchable ty = true := by
  cases subject <;> simp [switch?]

/-- A case is wrong just if both types are known and it does not fit. -/
theorem mem_case?_iff {subject actual : Option Ty} :
    problem ∈ case? subject actual ↔
      ∃ s a, subject = some s ∧ actual = some a ∧ caseFits s a = false ∧
        problem = .caseMismatch s a := by
  cases subject with
  | none => simp [case?]
  | some s =>
    cases actual with
    | none => simp [case?]
    | some a => cases fits : caseFits s a <;> simp [case?, fits, eq_comm (a := problem)]

theorem case?_eq_none_iff {subject actual : Option Ty} : case? subject actual = none ↔
    ∀ s a, subject = some s → actual = some a → caseFits s a = true := by
  cases subject <;> cases actual <;> simp [case?]

/-- An assertion is wrong just if the type that counts is known to be void or null. -/
theorem mem_assert?_iff {last : Option Ty} :
    problem ∈ assert? last ↔
      (last = some .void ∧ problem = .voidAssertion) ∨
        (last = some .null ∧ problem = .nullAssertion) := by
  rcases last with _ | ty
  · simp [assert?]
  · cases ty <;> simp [assert?, eq_comm (a := problem)]

/-- Something is wrong with a log just if one of its expressions is void and the types of all
expressions before it are known. -/
theorem mem_log?_iff {tys : List (Option Ty)} :
    problem ∈ log? tys ↔
      (∃ before after, tys = before ++ some .void :: after ∧ ∀ ty ∈ before, ty ≠ none) ∧
        problem = .voidLog := by
  induction tys with
  | nil => simp [log?]
  | cons ty rest ih =>
    cases ty with
    | none =>
      simp only [log?, Option.not_mem_none, false_iff, not_and]
      rintro ⟨_ | ⟨first, before⟩, after, split, known⟩
      · cases split
      · obtain ⟨rfl, -⟩ := List.cons.inj split
        exact absurd rfl (known _ List.mem_cons_self)
    | some ty =>
      cases void : ty.isVoid with
      | true =>
        have isVoid : ty = .void := by
          cases ty <;> first | rfl | cases void
        subst isVoid
        simp only [log?, Ty.isVoid, if_true, Option.mem_some_iff]
        refine ⟨fun same => ⟨⟨[], rest, rfl, by simp⟩, same.symm⟩, fun h => h.2.symm⟩
      | false =>
        simp only [log?, void, Bool.false_eq_true, if_false, ih]
        refine and_congr_left fun _ => ⟨?_, ?_⟩
        · rintro ⟨before, after, rfl, known⟩
          refine ⟨some ty :: before, after, rfl, ?_⟩
          simpa using known
        · rintro ⟨_ | ⟨first, before⟩, after, split, known⟩
          · cases split
            cases void
          · obtain ⟨-, rfl⟩ := List.cons.inj split
            exact ⟨before, after, rfl, fun t mem => known t (List.mem_cons_of_mem _ mem)⟩

/-- A jump is misplaced just if none of the open blocks may be left by it. -/
theorem mem_jump?_iff {kind : JumpKind} {owners : List Owner} :
    problem ∈ jump? kind owners ↔
      owners.any kind.mayLeave = false ∧ problem = .misplacedJump kind := by
  cases around : owners.any kind.mayLeave <;> simp [jump?, around, eq_comm (a := problem)]

/-- A label is wrong just if none of the open blocks carries it. -/
theorem mem_label?_iff {label : String} {owners : List Owner} :
    problem ∈ label? label owners ↔
      isLabelAround label owners = false ∧ problem = .unknownLabel label := by
  cases around : isLabelAround label owners <;> simp [label?, around, eq_comm (a := problem)]

end Rule

/-- A bare `super` is not found if the current class has no superclass, and any other name if no
visible class goes by it. -/
theorem QualifiedName.resolve_eq_error_iff {name : QualifiedName} {ctx : Context}
    {problem : Problem} :
    name.resolve ctx = .error problem ↔
      (name.isBareSuper = true ∧ ctx.function.cls.parent? = none ∧
        problem = .noSuperclass ctx.function.cls.name) ∨
      (name.isBareSuper = false ∧ ctx.classes.lookup name.aliasName? name.token.value = none ∧
        problem = .unknownClass name.token.value name.aliasName?) := by
  cases bare : name.isBareSuper with
  | true =>
    cases parent : ctx.function.cls.parent? <;>
      simp [resolve, bare, parent, eq_comm (a := problem)]
  | false =>
    cases found : ctx.classes.lookup name.aliasName? name.token.value <;>
      simp [resolve, bare, found, eq_comm (a := problem)]

end BodyCheck
