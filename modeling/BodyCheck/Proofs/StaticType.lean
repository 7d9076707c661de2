import BodyCheck.Proofs.Effect

/-!
# Static types

The type that an analysis finds for an expression is settled by the expression alone.  So it makes
no difference to an analysis what earlier analyses have found.

## Main definitions

* `Expr.staticTy?` — the type of an expression, told from the expression itself.
* `Expr.asBuilt` — an expression with nothing found about it.
* `Expr.typed` — an expression with all types found.
* `Expr.Consistent` — every type that has been found is the static type.

## Main statements

* `Expr.consistent_analyze` — analysis keeps an expression consistent.
* `Expr.analyze_eq_typed` — an analysis that finds nothing wrong finds all types.
* `Expr.analyze_asBuilt` — an analysis does the same whatever has been found before.

## Design notes

A type that has been found stays in the tree when a later analysis fails, and an access by key to a
base of unknown type leaves alone what it finds in its own place.  Both are harmless because of
`Consistent`: what was there is nothing or the static type, and for a base of unknown type there is
no static type.
-/

namespace BodyCheck.Expr

/-- The type of an expression as far as the expression tells it, if it is well typed. -/
def staticTy? : Expr → Option Ty
  | value _ content _ => content.declared?
  | read _ declared _ => some declared
  | assign _ source _ => source.staticTy?
  | index _ base _ _ => base.staticTy?.bind Ty.indexed?

/-- The expression as it was built, with nothing found about it. -/
def asBuilt : Expr → Expr
  | value token content _ => value token content none
  | read token declared _ => read token declared none
  | assign token source _ => assign token source.asBuilt none
  | index token base key _ => index token base.asBuilt key.asBuilt none

/-- The expression with all types found. -/
def typed : Expr → Expr
  | value token content _ => value token content content.declared?
  | read token declared _ => read token declared (some declared)
  | assign token source _ => assign token source.typed source.staticTy?
  | index token base key _ => index token base.typed key.typed (base.staticTy?.bind Ty.indexed?)

/-- What has been found about an expression and about the expressions inside it are their static
types. -/
def Consistent : Expr → Prop
  | value _ content known => known = none ∨ known = content.declared?
  | read _ declared known => known = none ∨ known = some declared
  | assign _ source known => source.Consistent ∧ (known = none ∨ known = source.staticTy?)
  | index _ base key known =>
    base.Consistent ∧ key.Consistent ∧ (known = none ∨ known = base.staticTy?.bind Ty.indexed?)

/-- What is typed has its static type. -/
@[simp] theorem ty?_typed (e : Expr) : e.typed.ty? = e.staticTy? := by
  cases e <;> rfl

@[simp] theorem token_asBuilt (e : Expr) : e.asBuilt.token = e.token := by
  cases e <;> rfl

@[simp] theorem asBuilt_asBuilt (e : Expr) : e.asBuilt.asBuilt = e.asBuilt := by
  induction e with
  | value | read => rfl
  | assign token source known ih => rw [asBuilt, asBuilt, ih]
  | index token base key known ihBase ihKey => rw [asBuilt, asBuilt, ihBase, ihKey]

/-- The static type is read off what was built. -/
@[simp] theorem staticTy?_asBuilt (e : Expr) : e.asBuilt.staticTy? = e.staticTy? := by
  induction e with
  | value | read => rfl
  | assign token source known ih => exact ih
  | index token base key known ihBase ihKey => exact congrArg (·.bind Ty.indexed?) ihBase

/-- What has been found is no part of the form. -/
@[simp] theorem form_asBuilt (e : Expr) : e.asBuilt.form = e.form := by
  induction e with
  | value | read => rfl
  | assign token source known ih => rw [asBuilt, form, form, ih]
  | index token base key known ihBase ihKey => rw [asBuilt, form, form, ihBase, ihKey]

/-- All types can be found from the expression as it was built. -/
@[simp] theorem typed_asBuilt (e : Expr) : e.asBuilt.typed = e.typed := by
  induction e with
  | value | read => rfl
  | assign token source known ih => rw [asBuilt, typed, typed, ih, staticTy?_asBuilt]
  | index token base key known ihBase ihKey =>
    rw [asBuilt, typed, typed, ihBase, ihKey, staticTy?_asBuilt]

/-- Nothing is known of an expression as built that could be wrong. -/
theorem consistent_asBuilt (e : Expr) : e.asBuilt.Consistent := by
  induction e with
  | value | read => exact .inl rfl
  | assign token source known ih => exact ⟨ih, .inl rfl⟩
  | index token base key known ihBase ihKey => exact ⟨ihBase, ihKey, .inl rfl⟩

/-! ## Analysis -/

/-- Analysis changes nothing in an expression but the types that have been found. -/
@[simp] theorem asBuilt_analyze (e : Expr) (ctx : Context) :
    (e.analyze ctx).expr.asBuilt = e.asBuilt := by
  induction e generalizing ctx with
  | value token content known => cases content <;> rfl
  | read token declared known =>
    rcases analyze_read_cases token declared known ctx with ⟨-, step⟩ | ⟨-, step⟩ | ⟨-, step⟩ <;>
      exact congrArg (·.expr.asBuilt) step
  | assign token source known ih =>
    rcases analyze_assign_cases token source known ctx with
      ⟨-, step⟩ | ⟨-, -, step⟩ | ⟨locals, -, -, step⟩ <;>
      rw [step, asBuilt, ih, asBuilt]
  | index token base key known ihBase ihKey =>
    rcases analyze_index_cases token base key known ctx with ⟨-, step⟩ | ⟨-, -, step⟩ |
      ⟨-, -, -, step⟩ | ⟨ty, -, -, -, -, step⟩ | ⟨ty, element, -, -, -, -, step⟩
    · rw [step, asBuilt, ihBase, asBuilt]
    all_goals rw [step, asBuilt, ihBase, ihKey, asBuilt]

/-- No analysis changes the static type of an expression. -/
theorem staticTy?_analyze (e : Expr) (ctx : Context) :
    (e.analyze ctx).expr.staticTy? = e.staticTy? := by
  rw [← staticTy?_asBuilt, asBuilt_analyze, staticTy?_asBuilt]

/-- An analysis that finds nothing wrong with a consistent expression finds all its types. -/
theorem analyze_eq_typed {e : Expr} (h : e.Consistent) {ctx : Context}
    (ok : (e.analyze ctx).ok = true) : (e.analyze ctx).expr = e.typed := by
  induction e generalizing ctx with
  | value token content known =>
    cases content with
    | failing message => cases ok
    | typed ty | untyped => rfl
  | read token declared known =>
    rcases analyze_read_cases token declared known ctx with ⟨-, step⟩ | ⟨-, step⟩ | ⟨-, step⟩
    · rw [step] at ok
      cases ok
    · rw [step] at ok
      cases ok
    · rw [step, typed]
  | assign token source known ih =>
    rcases analyze_assign_cases token source known ctx with
      ⟨-, step⟩ | ⟨-, -, step⟩ | ⟨locals, okSource, -, step⟩
    · rw [step] at ok
      cases ok
    · rw [step] at ok
      cases ok
    · rw [step, ih h.1 okSource, typed, ty?_typed]
  | index token base key known ihBase ihKey =>
    obtain ⟨consistentBase, consistentKey, consistent⟩ := h
    rcases analyze_index_cases token base key known ctx with ⟨-, step⟩ | ⟨-, -, step⟩ |
      ⟨okBase, okKey, unknown, step⟩ | ⟨ty, -, -, -, -, step⟩ |
      ⟨ty, element, okBase, okKey, isTy, isElement, step⟩
    · rw [step] at ok
      cases ok
    · rw [step] at ok
      cases ok
    · -- The base is of unknown type, so nothing can have been found about its elements.
      rw [ihBase consistentBase okBase, ty?_typed] at unknown
      have nothing : known = none := by
        rw [unknown] at consistent
        exact consistent.elim id id
      rw [step, ihBase consistentBase okBase, ihKey consistentKey okKey, typed, unknown, nothing]
      rfl
    · rw [step] at ok
      cases ok
    · rw [ihBase consistentBase okBase, ty?_typed] at isTy
      rw [step, ihBase consistentBase okBase, ihKey consistentKey okKey, typed, isTy,
        Option.bind_some, isElement]

/-- Analysis keeps an expression consistent, also if it finds something wrong. -/
theorem consistent_analyze {e : Expr} (h : e.Consistent) (ctx : Context) :
    (e.analyze ctx).expr.Consistent := by
  induction e generalizing ctx with
  | value token content known =>
    cases content with
    | typed ty => exact .inr rfl
    | failing message => exact h
    | untyped => exact .inl rfl
  | read token declared known =>
    rcases analyze_read_cases token declared known ctx with ⟨-, step⟩ | ⟨-, step⟩ | ⟨-, step⟩
    · rw [step]
      exact h
    · rw [step]
      exact h
    · rw [step]
      exact .inr rfl
  | assign token source known ih =>
    obtain ⟨consistentSource, consistent⟩ := h
    have source' := ih consistentSource ctx
    rcases analyze_assign_cases token source known ctx with
      ⟨-, step⟩ | ⟨-, -, step⟩ | ⟨locals, okSource, -, step⟩
    · rw [step]
      exact ⟨source', by rwa [staticTy?_analyze]⟩
    · rw [step]
      exact ⟨source', by rwa [staticTy?_analyze]⟩
    · rw [step]
      refine ⟨source', .inr ?_⟩
      rw [staticTy?_analyze, analyze_eq_typed consistentSource okSource, ty?_typed]
  | index token base key known ihBase ihKey =>
    obtain ⟨consistentBase, consistentKey, consistent⟩ := h
    have base' := ihBase consistentBase ctx
    have key' := ihKey consistentKey (base.analyze ctx).ctx
    rcases analyze_index_cases token base key known ctx with ⟨-, step⟩ | ⟨-, -, step⟩ |
      ⟨-, -, -, step⟩ | ⟨ty, -, -, -, -, step⟩ | ⟨ty, element, okBase, -, isTy, isElement, step⟩
    · rw [step]
      exact ⟨base', consistentKey, by rwa [staticTy?_analyze]⟩
    · rw [step]
      exact ⟨base', key', by rwa [staticTy?_analyze]⟩
    · rw [step]
      exact ⟨base', key', by rwa [staticTy?_analyze]⟩
    · rw [step]
      exact ⟨base', key', by rwa [staticTy?_analyze]⟩
    · rw [step]
      refine ⟨base', key', .inr ?_⟩
      rw [analyze_eq_typed consistentBase okBase, ty?_typed] at isTy
      rw [staticTy?_analyze, isTy, Option.bind_some, isElement]

/-- What an analysis finds wrong and does to the context is the same as if nothing had been found
before. -/
theorem analyze_asBuilt {e : Expr} (h : e.Consistent) (ctx : Context) :
    (e.asBuilt.analyze ctx).ctx = (e.analyze ctx).ctx ∧
      (e.asBuilt.analyze ctx).ok = (e.analyze ctx).ok := by
  induction e generalizing ctx with
  | value token content known => cases content <;> exact ⟨rfl, rfl⟩
  | read token declared known =>
    rw [asBuilt, analyze, analyze]
    split <;> exact ⟨rfl, rfl⟩
  | assign token source known ih =>
    obtain ⟨sameCtx, sameOk⟩ := ih h.1 ctx
    rw [asBuilt, analyze, analyze, sameCtx, sameOk]
    split
    · split <;> exact ⟨rfl, rfl⟩
    · exact ⟨rfl, rfl⟩
  | index token base key known ihBase ihKey =>
    obtain ⟨consistentBase, consistentKey, -⟩ := h
    obtain ⟨sameCtx, sameOk⟩ := ihBase consistentBase ctx
    obtain ⟨sameCtxKey, sameOkKey⟩ := ihKey consistentKey (base.analyze ctx).ctx
    cases okBase : (base.analyze ctx).ok with
    | false => simp [asBuilt, analyze, sameCtx, sameOk, okBase]
    | true =>
      have sameBase : (base.asBuilt.analyze ctx).expr = (base.analyze ctx).expr := by
        rw [analyze_eq_typed base.consistent_asBuilt (sameOk.trans okBase), typed_asBuilt,
          analyze_eq_typed consistentBase okBase]
      rw [asBuilt, analyze, analyze]
      simp only [sameCtx, sameOk, okBase, sameBase, sameCtxKey, sameOkKey, if_true]
      split
      · split
        · exact ⟨rfl, rfl⟩
        · split <;> exact ⟨rfl, rfl⟩
      · exact ⟨rfl, rfl⟩

/-! ## Several expressions -/

@[simp] theorem asBuilt_comp_asBuilt : asBuilt ∘ asBuilt = asBuilt :=
  funext asBuilt_asBuilt

@[simp] theorem typed_comp_asBuilt : typed ∘ asBuilt = typed :=
  funext typed_asBuilt

@[simp] theorem map_asBuilt_analyzeOptional (e : Option Expr) (ctx : Context) :
    (analyzeOptional e ctx).1.map asBuilt = e.map asBuilt := by
  cases e with
  | none => rfl
  | some e => exact congrArg some (e.asBuilt_analyze ctx)

theorem consistent_analyzeOptional {e : Option Expr} (h : ∀ e' ∈ e, e'.Consistent)
    (ctx : Context) : ∀ e' ∈ (analyzeOptional e ctx).1, e'.Consistent := by
  cases e with
  | none => exact h
  | some e =>
    rintro _ ⟨⟩
    exact consistent_analyze (h e rfl) ctx

theorem analyzeOptional_asBuilt {e : Option Expr} (h : ∀ e' ∈ e, e'.Consistent) (ctx : Context) :
    (analyzeOptional (e.map asBuilt) ctx).2 = (analyzeOptional e ctx).2 := by
  cases e with
  | none => rfl
  | some e => exact (analyze_asBuilt (h e rfl) ctx).1

@[simp] theorem map_asBuilt_analyzeWhileOk (es : List Expr) (ctx : Context) :
    (analyzeWhileOk es ctx).1.map asBuilt = es.map asBuilt := by
  induction es generalizing ctx with
  | nil => rfl
  | cons e rest ih =>
    rw [analyzeWhileOk]
    split
    · rw [List.map_cons, ih, asBuilt_analyze, List.map_cons]
    · rw [List.map_cons, asBuilt_analyze, List.map_cons]

/-- Expressions that have all been found right are typed. -/
theorem analyzeWhileOk_eq_typed {es : List Expr} (h : ∀ e ∈ es, e.Consistent) {ctx : Context}
    (ok : (analyzeWhileOk es ctx).2.2 = true) : (analyzeWhileOk es ctx).1 = es.map typed := by
  induction es generalizing ctx with
  | nil => rfl
  | cons e rest ih =>
    rw [List.forall_mem_cons] at h
    rw [analyzeWhileOk] at ok ⊢
    split at ok
    case isTrue okFirst =>
      rw [if_pos okFirst, List.map_cons, ← analyze_eq_typed h.1 okFirst, ← ih h.2 ok]
    case isFalse => cases ok

/-- Consistent expressions stay so when they are analyzed up to the first that is wrong. -/
theorem consistent_analyzeWhileOk {es : List Expr} (h : ∀ e ∈ es, e.Consistent) (ctx : Context) :
    ∀ e ∈ (analyzeWhileOk es ctx).1, e.Consistent := by
  induction es generalizing ctx with
  | nil => exact h
  | cons e rest ih =>
    rw [List.forall_mem_cons] at h
    rw [analyzeWhileOk]
    split
    · exact List.forall_mem_cons.mpr ⟨consistent_analyze h.1 ctx, ih h.2 _⟩
    · exact List.forall_mem_cons.mpr ⟨consistent_analyze h.1 ctx, h.2⟩

/-- What comes of them does not depend on what was known of their types. -/
theorem analyzeWhileOk_asBuilt {es : List Expr} (h : ∀ e ∈ es, e.Consistent) (ctx : Context) :
    (analyzeWhileOk (es.map asBuilt) ctx).2 = (analyzeWhileOk es ctx).2 := by
  induction es generalizing ctx with
  | nil => rfl
  | cons e rest ih =>
    rw [List.forall_mem_cons] at h
    obtain ⟨sameCtx, sameOk⟩ := analyze_asBuilt h.1 ctx
    rw [List.map_cons, analyzeWhileOk, analyzeWhileOk, sameCtx, sameOk]
    split
    · exact ih h.2 _
    · rfl

@[simp] theorem map_asBuilt_analyzeArgs (es : List Expr) (ctx : Context) :
    (analyzeArgs es ctx).1.map asBuilt = es.map asBuilt := by
  induction es generalizing ctx with
  | nil => rfl
  | cons e rest ih =>
    rw [analyzeArgs]
    split
    · rw [List.map_cons, ih, asBuilt_analyze, List.map_cons]
    · rw [List.map_cons, asBuilt_analyze, List.map_cons]

/-- Consistent arguments stay so. -/
theorem consistent_analyzeArgs {es : List Expr} (h : ∀ e ∈ es, e.Consistent) (ctx : Context) :
    ∀ e ∈ (analyzeArgs es ctx).1, e.Consistent := by
  induction es generalizing ctx with
  | nil => exact h
  | cons e rest ih =>
    rw [List.forall_mem_cons] at h
    rw [analyzeArgs]
    split
    · exact List.forall_mem_cons.mpr ⟨consistent_analyze h.1 ctx, ih h.2 _⟩
    · exact List.forall_mem_cons.mpr ⟨consistent_analyze h.1 ctx, h.2⟩

/-- What comes of arguments does not depend on what was known of their types. -/
theorem analyzeArgs_asBuilt {es : List Expr} (h : ∀ e ∈ es, e.Consistent) (ctx : Context) :
    (analyzeArgs (es.map asBuilt) ctx).2 = (analyzeArgs es ctx).2 := by
  induction es generalizing ctx with
  | nil => rfl
  | cons e rest ih =>
    rw [List.forall_mem_cons] at h
    obtain ⟨sameCtx, sameOk⟩ := analyze_asBuilt h.1 ctx
    rw [List.map_cons, analyzeArgs, analyzeArgs, sameCtx, sameOk]
    cases ok : (e.analyze ctx).ok with
    | false => rfl
    | true =>
      rw [analyze_eq_typed e.consistent_asBuilt (sameOk.trans ok), typed_asBuilt,
        analyze_eq_typed h.1 ok]
      cases e.typed.ty? with
      | none => rfl
      | some ty =>
        have same := ih h.2 (e.analyze ctx).ctx
        exact congrArg (fun rest => (rest.1, rest.2.map (ty :: ·))) same

end BodyCheck.Expr
