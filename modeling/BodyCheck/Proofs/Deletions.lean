import BodyCheck.Proofs.Effect
import BodyCheck.Proofs.Rules

/-!
# Deletions

Which expressions may be deleted.  A deletion looks at the key of what it deletes, and the access by
key looks at its base; neither holds the one against the other.

## Main definitions

* `Ty.HasElements` — the types of values in which something is found under keys.
* `Expr.Deletable` — the expressions that may be deleted.

## Main statements

* `Expr.ok_analyze_index_iff` — what an access by key looks at.
* `Simple.deletes_by_name` — a deletion is accepted just if its operand may be deleted.
* `Simple.deletes_from_array` — so what is deleted need not be of a hash object.
-/

namespace BodyCheck

namespace Ty

variable {ty : Ty}

/-- Values of the type are arrays, hash objects or of unchecked type, if they are not missing. -/
def HasElements (ty : Ty) : Prop :=
  (∃ element, ty.defined = .array element ∨ ty.defined = .map element) ∨ ty.defined = .variant

/-- A type has elements just if an access by key has a type. -/
theorem hasElements_iff : ty.HasElements ↔ ∃ element, ty.indexed? = some element := by
  rw [HasElements, indexed?]
  cases ty.defined <;> simp

end Ty

namespace Expr

variable {e base key : Expr} {token : Token} {known : Option Ty} {ctx : Context}

/-- An access by key is right if nothing is wrong with its base and its key and the base has
elements, as far as its type is known.  The type of the key is not looked at. -/
theorem ok_analyze_index_iff : ((index token base key known).analyze ctx).ok = true ↔
    (base.analyze ctx).ok = true ∧ (key.analyze (base.analyze ctx).ctx).ok = true ∧
      ∀ ty, (base.analyze ctx).expr.ty? = some ty → ty.HasElements := by
  simp only [Ty.hasElements_iff]
  rcases analyze_index_cases token base key known ctx with ⟨wrongBase, step⟩ |
    ⟨-, wrongKey, step⟩ | ⟨okBase, okKey, unknown, step⟩ | ⟨ty, -, -, isTy, noElements, step⟩ |
    ⟨ty, element, okBase, okKey, isTy, elements, step⟩
  · simp [step, wrongBase]
  · simp [step, wrongKey]
  · simp [step, okBase, okKey, unknown]
  · simp [step, isTy, noElements]
  · simp [step, okBase, okKey, isTy, elements]

/-- The analysis of a right access by key keeps the analyzed key. -/
theorem key?_analyze_index (ok : ((index token base key known).analyze ctx).ok = true) :
    ((index token base key known).analyze ctx).expr.key?
      = some (key.analyze (base.analyze ctx).ctx).expr := by
  obtain ⟨okBase, okKey, -⟩ := ok_analyze_index_iff.mp ok
  rcases analyze_index_cases token base key known ctx with ⟨wrongBase, -⟩ | ⟨-, wrongKey, -⟩ |
    ⟨-, -, -, step⟩ | ⟨ty, -, -, -, -, step⟩ | ⟨ty, element, -, -, -, -, step⟩
  · rw [okBase] at wrongBase
    cases wrongBase
  · rw [okKey] at wrongKey
    cases wrongKey
  · rw [step, key?]
  · rw [step, key?]
  · rw [step, key?]

/-- The analysis makes no access by key of any other expression. -/
theorem eq_index_of_key?_analyze (h : (e.analyze ctx).expr.key? = some key) :
    ∃ token base key' known, e = index token base key' known := by
  cases e with
  | value token content known => cases content <;> cases h
  | read token declared known =>
    rcases analyze_read_cases token declared known ctx with ⟨-, step⟩ | ⟨-, step⟩ | ⟨-, step⟩ <;>
      rw [step] at h <;> cases h
  | assign token source known =>
    rcases analyze_assign_cases token source known ctx with
      ⟨-, step⟩ | ⟨-, -, step⟩ | ⟨locals, -, -, step⟩ <;> rw [step] at h <;> cases h
  | index token base key' known => exact ⟨token, base, key', known, rfl⟩

/-- The expression may be deleted in the context: it is an access by key in which nothing is wrong,
its base has elements, and its key is a string, as far as their types are known. -/
inductive Deletable (ctx : Context) : Expr → Prop
  | element (token : Token) (base key : Expr) (known : Option Ty)
      (okBase : (base.analyze ctx).ok = true)
      (okKey : (key.analyze (base.analyze ctx).ctx).ok = true)
      (hasElements : ∀ ty, (base.analyze ctx).expr.ty? = some ty → ty.HasElements)
      (isName : ∀ ty, (key.analyze (base.analyze ctx).ctx).expr.ty? = some ty →
        ty.defined = .string) :
      Deletable ctx (index token base key known)

/-- An expression may be deleted just if neither its analysis nor the rule finds anything wrong. -/
theorem deletable_iff : e.Deletable ctx ↔
    (e.analyze ctx).ok = true ∧ Rule.delete? (e.analyze ctx).expr = none := by
  rw [Rule.delete?_eq_none_iff]
  constructor
  · rintro ⟨token, base, key, known, okBase, okKey, hasElements, isName⟩
    have ok : ((index token base key known).analyze ctx).ok = true :=
      ok_analyze_index_iff.mpr ⟨okBase, okKey, hasElements⟩
    exact ⟨ok, _, key?_analyze_index ok, isName⟩
  · rintro ⟨ok, key, isKey, isName⟩
    obtain ⟨token, base, key, known, rfl⟩ := eq_index_of_key?_analyze isKey
    obtain ⟨okBase, okKey, hasElements⟩ := ok_analyze_index_iff.mp ok
    rw [key?_analyze_index ok] at isKey
    obtain rfl := Option.some.inj isKey
    exact .element token base key known okBase okKey hasElements isName

end Expr

namespace Simple

/-- **Deletions.**  If the operand may be deleted, nothing is reported of the deletion; otherwise one
problem is. -/
theorem deletes_by_name (keyword : Token) (e : Expr) (ctx : Context) :
    let behind := ((delete keyword e).analyze ctx).ctx
    (e.Deletable ctx ∧ behind.diagnostics = ctx.diagnostics) ∨
      ¬ e.Deletable ctx ∧ ∃ d, behind.diagnostics = ctx.diagnostics ++ [d] := by
  intro behind
  have step : behind = if (e.analyze ctx).ok then
      (e.analyze ctx).ctx.reportAny (Rule.delete? (e.analyze ctx).expr) keyword
    else (e.analyze ctx).ctx := rfl
  rw [Expr.deletable_iff, step]
  cases ok : (e.analyze ctx).ok with
  | false =>
    refine .inr ⟨by simp, ?_⟩
    exact e.exists_diagnostic_of_not_ok ctx ok
  | true =>
    rw [if_pos rfl, Context.diagnostics_reportAny, e.diagnostics_of_ok ctx ok]
    cases wrong : Rule.delete? (e.analyze ctx).expr with
    | none => exact .inl ⟨⟨rfl, rfl⟩, List.append_nil _⟩
    | some problem => exact .inr ⟨by simp, _, rfl⟩

/-- Nothing is reported of the deletion of `a["k"]` for an array `a` of integers, although the types
of both are known and the array is no hash object. -/
theorem deletes_from_array :
    let base : Expr := .value (.synthetic "a") (.typed (.array .int)) none
    let key : Expr := .value (.synthetic "k") (.typed .string) none
    let ctx := Context.start default .empty .empty
    let deletion := delete (.synthetic "delete") (.index (.synthetic "[") base key none)
    (deletion.analyze ctx).ctx.diagnostics = ctx.diagnostics ∧
      (base.analyze ctx).expr.ty? = some (.array .int) ∧
      (key.analyze (base.analyze ctx).ctx).expr.ty? = some .string ∧
      ¬ ((∃ element, (Ty.array .int).defined = .map element) ∨
        (Ty.array .int).defined = .variant) := by
  intro base key ctx deletion
  refine ⟨rfl, rfl, rfl, ?_⟩
  simp [Ty.defined]

end Simple

end BodyCheck
