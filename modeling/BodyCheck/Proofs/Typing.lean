import BodyCheck.Proofs.Appearance

/-!
# Typing

The type of an expression is told by the expression alone, and so is what an analysis may ever find
in its place: nothing or just this type.  What the locals decide is only whether the analysis comes
through.  It goes from part to part, operands first and from left to right, and stops at the first
part that is wrong where it is met.

## Main definitions

* `Typing`, `Expr.typing` — what an expression tells of its type.
* `Expr.Arises` — the expressions that building and analyzing lead to.
* `Expr.evaluationOrder` — the parts of an expression in the order in which they are met.
* `Expr.Wrong`, `Expr.AllRight` — what may be wrong with a part, and that nothing is with any.
* `Context.Meets` — an analysis that comes through parts or stops at the first wrong one.

## Main statements

* `Expr.Arises.consistent` — whatever has been found is the static type.
* `Expr.analyze_meets` — the analysis of an expression meets its parts in order.
* `Expr.typing_context_free` — types, and which expressions come through.

## Design notes

`Expr.staticTy?` has nothing to say about an expression that is ill typed, as about one of unknown
type.  Here the two are told apart: an access by key to something of unknown type is right, and one
to something that has no elements never is.

A part is judged by the locals behind the parts before it.  These are folded from the parts, not
taken from the analysis, so that what is right is said without it.
-/

namespace BodyCheck

/-! ## Static types -/

/-- What an expression tells of its type. -/
inductive Typing
  | typed (ty : Ty)
  /-- Nothing is known about the type. -/
  | unknown
  /-- An element is taken of something that has no elements. -/
  | illTyped
deriving DecidableEq, Repr

namespace Typing

/-- The type, if there is one. -/
def ty? : Typing → Option Ty
  | typed ty => some ty
  | unknown | illTyped => none

/-- What is told of the elements, also if the container itself may be missing.  An element of an
array or of a hash object may be missing, and a type that says so already is not wrapped again; of
the parts of a variant nothing more is known than of itself. -/
def indexed : Typing → Typing
  | typed (.array element) | typed (.maybeUndefined (.array element))
  | typed (.map element) | typed (.maybeUndefined (.map element)) => typed element.orUndefined
  | typed .variant | typed (.maybeUndefined .variant) => typed .variant
  | unknown => unknown
  | typed _ | illTyped => illTyped

/-- Of a known type the elements are known, or it has none. -/
theorem indexed_typed (ty : Ty) :
    (typed ty).indexed = (ty.indexed?.map typed).getD illTyped := by
  cases ty with
  | maybeUndefined inner => cases inner <;> rfl
  | _ => rfl

theorem ty?_indexed (t : Typing) : t.indexed.ty? = t.ty?.bind Ty.indexed? := by
  cases t with
  | typed ty =>
    rw [indexed_typed]
    show _ = ty.indexed?
    cases ty.indexed? <;> rfl
  | unknown | illTyped => rfl

/-- Taking an element is wrong just if the type is known and has no elements. -/
theorem indexed_eq_illTyped_iff {t : Typing} (ne : t ≠ illTyped) :
    t.indexed = illTyped ↔ ∃ ty, t.ty? = some ty ∧ ty.indexed? = none := by
  cases t with
  | typed ty =>
    rw [indexed_typed]
    cases elements : ty.indexed? <;> simp [ty?, elements]
  | unknown => simp [indexed, ty?]
  | illTyped => exact absurd rfl ne

theorem eq_typed_of_ty? {t : Typing} {ty : Ty} (h : t.ty? = some ty) : t = typed ty := by
  cases t with
  | typed ty' => exact congrArg typed (Option.some.inj h)
  | unknown | illTyped => cases h

end Typing

namespace Expr

/-- What the expression tells of its type: a value has the type that is settled for it, a read that
of its declaration and an assignment that of what is assigned. -/
def typing : Expr → Typing
  | value _ (.typed ty) _ => .typed ty
  | value .. => .unknown
  | read _ declared _ => .typed declared
  | assign _ source _ => source.typing
  | index _ base _ _ => base.typing.indexed

/-- The typing of an expression tells its static type. -/
theorem ty?_typing (e : Expr) : e.typing.ty? = e.staticTy? := by
  induction e with
  | value token content known => cases content <;> rfl
  | read token declared known => rfl
  | assign token source known ih => exact ih
  | index token base key known ihBase ihKey =>
    exact (Typing.ty?_indexed _).trans (congrArg (·.bind Ty.indexed?) ihBase)

/-- The typing of an expression is read off what was built. -/
@[simp] theorem typing_asBuilt (e : Expr) : e.asBuilt.typing = e.typing := by
  induction e with
  | value token content known => cases content <;> rfl
  | read token declared known => rfl
  | assign token source known ih => exact ih
  | index token base key known ihBase ihKey => exact congrArg Typing.indexed ihBase

/-- An analysis changes the static type of no part. -/
theorem map_typing_parts_analyze (e : Expr) (ctx : Context) :
    (e.analyze ctx).expr.parts.map typing = e.parts.map typing := by
  have told (e : Expr) : e.asBuilt.parts.map typing = e.parts.map typing := by
    rw [parts_asBuilt, List.map_map]
    exact congrArg (e.parts.map ·) (funext typing_asBuilt)
  rw [← told, asBuilt_analyze, told]

theorem parts_typed (e : Expr) : e.typed.parts = e.parts.map typed := by
  induction e with
  | value | read => rfl
  | assign token source known ih => rw [typed, parts, ih, parts, List.map_cons, typed]
  | index token base key known ihBase ihKey =>
    rw [typed, parts, ihBase, ihKey, parts, List.map_cons, List.map_append, typed]

/-! ## What has been found -/

/-- The expressions that there can be: what is built of expressions that there are already, and
what an analysis leaves behind. -/
inductive Arises : Expr → Prop
  | value (token : Token) (content : Value) : Arises (value token content none)
  | read (token : Token) (declared : Ty) : Arises (read token declared none)
  | assign (token : Token) {source : Expr} (h : source.Arises) : Arises (assign token source none)
  | index (token : Token) {base key : Expr} (hBase : base.Arises) (hKey : key.Arises) :
      Arises (index token base key none)
  | analyzed {e : Expr} (h : e.Arises) (ctx : Context) : Arises (e.analyze ctx).expr

/-- Whatever has been found is the static type. -/
theorem Arises.consistent {e : Expr} (h : e.Arises) : e.Consistent := by
  induction h with
  | value | read => exact .inl rfl
  | assign token h ih => exact ⟨ih, .inl rfl⟩
  | index token hBase hKey ihBase ihKey => exact ⟨ihBase, ihKey, .inl rfl⟩
  | analyzed h ctx ih => exact consistent_analyze ih ctx

/-- In a consistent expression, what has been found about a part is its static type. -/
theorem Consistent.typing_eq {e : Expr} (h : e.Consistent) :
    ∀ p ∈ e.parts, ∀ ty ∈ p.ty?, p.typing = .typed ty := by
  -- What is said of every part is first said of an expression itself.
  have here {e : Expr} (found : e.ty? = none ∨ e.ty? = e.staticTy?) :
      ∀ ty ∈ e.ty?, e.typing = .typed ty := by
    intro ty isTy
    refine Typing.eq_typed_of_ty? ?_
    rcases found with nothing | static
    · rw [nothing] at isTy
      cases isTy
    · rw [ty?_typing, ← static, isTy]
  induction e with
  | value | read => exact List.forall_mem_singleton.mpr (here h)
  | assign token source known ih =>
    exact List.forall_mem_cons.mpr ⟨here h.2, ih h.1⟩
  | index token base key known ihBase ihKey =>
    obtain ⟨consistentBase, consistentKey, found⟩ := h
    refine List.forall_mem_cons.mpr ⟨here found, ?_⟩
    exact List.forall_mem_append.mpr ⟨ihBase consistentBase, ihKey consistentKey⟩

/-! ## What may be wrong -/

/-- The parts of an expression in the order in which they are met: operands first, and from left to
right. -/
def evaluationOrder : Expr → List Expr
  | value token content known => [value token content known]
  | read token declared known => [read token declared known]
  | assign token source known => source.evaluationOrder ++ [assign token source known]
  | index token base key known =>
    base.evaluationOrder ++ key.evaluationOrder ++ [index token base key known]

/-- Every part has its place in the order. -/
theorem evaluationOrder_perm_parts (e : Expr) : e.evaluationOrder.Perm e.parts := by
  induction e with
  | value | read => exact .refl _
  | assign token source known ih =>
    exact (List.perm_append_singleton _ _).trans (ih.cons _)
  | index token base key known ihBase ihKey =>
    exact (List.perm_append_singleton _ _).trans ((ihBase.append ihKey).cons _)

/-- An expression is evaluated last of its own parts. -/
theorem self_mem_evaluationOrder (e : Expr) : e ∈ e.evaluationOrder := by
  cases e <;> simp [evaluationOrder]

/-- What may be wrong with a part itself, where it is met with the given locals. -/
inductive Wrong (locals : Locals) : Expr → Prop
  | failing (token : Token) (message : String) (known : Option Ty) :
      Wrong locals (value token (.failing message) known)
  | unset (token : Token) (declared : Ty) (known : Option Ty)
      (h : locals.status? token.value = some .unset) : Wrong locals (read token declared known)
  | undeclared (token : Token) (declared : Ty) (known : Option Ty)
      (h : locals.status? token.value = none) : Wrong locals (read token declared known)
  | unassignable (token : Token) (source : Expr) (known : Option Ty)
      (h : locals.status? token.value = none) : Wrong locals (assign token source known)
  | illTyped (token : Token) (base key : Expr) (known : Option Ty)
      (h : (index token base key known).typing = .illTyped) :
      Wrong locals (index token base key known)

/-- A read of a set variable is right. -/
theorem not_wrong_read {locals : Locals} {token : Token} {declared : Ty} {known : Option Ty}
    (h : locals.status? token.value = some .set) : ¬ Wrong locals (read token declared known) := by
  rintro (_ | ⟨_, _, _, status⟩ | ⟨_, _, _, status⟩) <;>
    rw [h] at status <;> cases status

theorem not_wrong_assign {locals after : Locals} {token : Token} {source : Expr}
    {known : Option Ty} (h : locals.assign? token.value = some after) :
    ¬ Wrong locals (assign token source known) := by
  rintro (_ | _ | _ | ⟨_, _, _, status⟩)
  rw [Locals.assign?_eq_none_iff.mpr status] at h
  cases h

/-- An access is wrong just if its base is known to have no elements. -/
theorem wrong_index_iff {locals : Locals} {token : Token} {base key : Expr} {known : Option Ty} :
    Wrong locals (index token base key known) ↔ base.typing.indexed = .illTyped := by
  constructor
  · rintro (_ | _ | _ | _ | ⟨_, _, _, _, illTyped⟩)
    exact illTyped
  · exact .illTyped token base key known

/-- The locals behind a part: an assignment to a declared variable sets it. -/
def behind (locals : Locals) : Expr → Locals
  | assign token _ _ => (locals.assign? token.value).getD locals
  | value .. | read .. | index .. => locals

/-- None of the parts is wrong where it is met, one behind the other. -/
def AllRight (locals : Locals) : List Expr → Prop
  | [] => True
  | part :: rest => ¬ part.Wrong locals ∧ AllRight (behind locals part) rest

/-- Parts are right one behind the other if the first ones are, and then the others behind them. -/
theorem allRight_append {locals : Locals} {p q : List Expr} :
    AllRight locals (p ++ q) ↔ AllRight locals p ∧ AllRight (p.foldl behind locals) q := by
  induction p generalizing locals with
  | nil => simp [AllRight]
  | cons part rest ih => simp [AllRight, ih, and_assoc]

/-- If none of its parts is wrong, no part of an expression is ill typed. -/
theorem AllRight.typing_ne_illTyped {locals : Locals} {e : Expr}
    (h : AllRight locals e.evaluationOrder) : ∀ p ∈ e.evaluationOrder, p.typing ≠ .illTyped := by
  induction e generalizing locals with
  | value token content known => cases content <;> simp [evaluationOrder, typing]
  | read token declared known => simp [evaluationOrder, typing]
  | assign token source known ih =>
    have sources := ih (allRight_append.mp h).1
    exact List.forall_mem_append.mpr
      ⟨sources, List.forall_mem_singleton.mpr (sources source source.self_mem_evaluationOrder)⟩
  | index token base key known ihBase ihKey =>
    obtain ⟨operands, last⟩ := allRight_append.mp h
    obtain ⟨bases, keys⟩ := allRight_append.mp operands
    refine List.forall_mem_append.mpr
      ⟨List.forall_mem_append.mpr ⟨ihBase bases, ihKey keys⟩, List.forall_mem_singleton.mpr ?_⟩
    exact fun illTyped => last.1 (.illTyped token base key known illTyped)

end Expr

/-! ## Analysis -/

/-- An analysis from `before` to `after` that meets the given parts in order: it comes through them
if none is wrong, and otherwise it stops at the first that is and reports this. -/
inductive Context.Meets (before : Context) (parts : List Expr) : Bool → Context → Prop
  | through {after : Context} (right : Expr.AllRight before.locals parts)
      (locals : after.locals = parts.foldl Expr.behind before.locals)
      (quiet : after.diagnostics = before.diagnostics) : Meets before parts true after
  | stopped {after : Context} (past : List Expr) (part : Expr) (later : List Expr)
      (problem : Problem) (split : parts = past ++ part :: later)
      (right : Expr.AllRight before.locals past)
      (wrong : part.Wrong (past.foldl Expr.behind before.locals))
      (reported : after.diagnostics = before.diagnostics ++ [⟨problem, part.token⟩]) :
      Meets before parts false after

namespace Context.Meets

variable {a b c : Context} {p q : List Expr} {part : Expr} {ok : Bool}

theorem one (sound : ¬ part.Wrong a.locals) (locals : b.locals = Expr.behind a.locals part)
    (quiet : b.diagnostics = a.diagnostics) : a.Meets [part] true b :=
  .through ⟨sound, trivial⟩ locals quiet

theorem stopped_one {problem : Problem} (wrong : part.Wrong a.locals) :
    a.Meets [part] false (a.report problem part.token) :=
  .stopped [] part [] problem rfl trivial wrong rfl

/-- Parts may be met in two goes if nothing is wrong in the first. -/
theorem append (hp : a.Meets p true b) (hq : b.Meets q ok c) : a.Meets (p ++ q) ok c := by
  obtain ⟨right, locals, quiet⟩ := hp
  cases hq with
  | through right' locals' quiet' =>
    refine .through (Expr.allRight_append.mpr ⟨right, locals ▸ right'⟩) ?_ (quiet'.trans quiet)
    rw [locals', locals, List.foldl_append]
  | stopped past part later problem split right' wrong reported =>
    refine .stopped (p ++ past) part later problem (by rw [split, List.append_assoc])
      (Expr.allRight_append.mpr ⟨right, locals ▸ right'⟩) ?_ (quiet ▸ reported)
    rw [List.foldl_append, ← locals]
    exact wrong

/-- Behind the first wrong part nothing is met. -/
theorem stop (hp : a.Meets p false b) (q : List Expr) : a.Meets (p ++ q) false b := by
  obtain _ | ⟨past, part, later, problem, split, right, wrong, reported⟩ := hp
  exact .stopped past part (later ++ q) problem (by simp [split]) right wrong reported

/-- An analysis comes through just if no part is wrong where it is met. -/
theorem ok_iff (h : a.Meets p ok b) : ok = true ↔ Expr.AllRight a.locals p := by
  cases h with
  | through right => simp [right]
  | stopped past part later problem split right wrong =>
    simp [split, Expr.allRight_append, Expr.AllRight, wrong]

end Context.Meets

namespace Expr

/-- An analysis that finds nothing wrong finds the static type. -/
theorem ty?_analyze_of_ok {e : Expr} (h : e.Consistent) {ctx : Context}
    (ok : (e.analyze ctx).ok = true) : (e.analyze ctx).expr.ty? = e.typing.ty? := by
  rw [analyze_eq_typed h ok, ty?_typed, ty?_typing]

/-- The analysis of an expression meets its parts in order. -/
theorem analyze_meets {e : Expr} (h : e.Consistent) (ctx : Context) :
    ctx.Meets e.evaluationOrder (e.analyze ctx).ok (e.analyze ctx).ctx := by
  induction e generalizing ctx with
  | value token content known =>
    cases content with
    | failing message => exact .stopped_one (.failing token message known)
    | typed ty | untyped => exact .one nofun rfl rfl
  | read token declared known =>
    rcases analyze_read_cases token declared known ctx with
      ⟨status, step⟩ | ⟨status, step⟩ | ⟨status, step⟩
    · rw [step]
      exact .stopped_one (.undeclared token declared known status)
    · rw [step]
      exact .stopped_one (.unset token declared known status)
    · rw [step]
      exact .one (not_wrong_read status) rfl rfl
  | assign token source known ih =>
    have sources := ih h.1 ctx
    rcases analyze_assign_cases token source known ctx with
      ⟨wrong, step⟩ | ⟨ok, status, step⟩ | ⟨locals, ok, assigned, step⟩
    · rw [wrong] at sources
      rw [step]
      exact sources.stop _
    · rw [ok] at sources
      rw [step]
      exact sources.append (.stopped_one (.unassignable token source known status))
    · rw [ok] at sources
      rw [step]
      refine sources.append (.one (not_wrong_assign assigned) ?_ rfl)
      simp [behind, assigned]
  | index token base key known ihBase ihKey =>
    obtain ⟨consistentBase, consistentKey, -⟩ := h
    have bases := ihBase consistentBase ctx
    have keys := ihKey consistentKey (base.analyze ctx).ctx
    rcases analyze_index_cases token base key known ctx with ⟨wrong, step⟩ | ⟨ok, wrong, step⟩ |
      ⟨ok, okKey, isTy, step⟩ | ⟨ty, ok, okKey, isTy, noElements, step⟩ |
      ⟨ty, element, ok, okKey, isTy, elements, step⟩
    · rw [wrong] at bases
      rw [step, evaluationOrder, List.append_assoc]
      exact bases.stop _
    · rw [ok] at bases
      rw [wrong] at keys
      rw [step]
      exact (bases.append keys).stop _
    -- Both operands come through, so that the access itself is judged by the type of its base.
    all_goals
      rw [ok] at bases
      rw [okKey] at keys
      rw [ty?_analyze_of_ok consistentBase ok] at isTy
      rw [step]
      have operands := bases.append keys
      have wrong_iff := Typing.indexed_eq_illTyped_iff
        ((bases.ok_iff.mp rfl).typing_ne_illTyped base base.self_mem_evaluationOrder)
    · refine operands.append (.one ?_ rfl rfl)
      rw [wrong_index_iff, wrong_iff, isTy]
      simp
    · refine operands.append (.stopped_one (wrong_index_iff.mpr ?_))
      exact wrong_iff.mpr ⟨ty, isTy, noElements⟩
    · refine operands.append (.one ?_ rfl rfl)
      rw [wrong_index_iff, wrong_iff, isTy]
      simp [elements]

/-- **Static types.**  Of no part of an expression has any type but its static type ever been found,
however the expression has been built and analyzed before, and no analysis changes static types.  An
analysis that finds nothing wrong finds the static types of all parts, and none is ill typed.  It
finds nothing wrong just if no part is wrong where it is met: no value is failing, no local is read
that is undeclared or unset, none is assigned that is undeclared, no access by key is ill typed. -/
theorem typing_context_free {e : Expr} (h : e.Arises) :
    (∀ p ∈ e.parts, ∀ ty ∈ p.ty?, p.typing = .typed ty) ∧
    ∀ ctx : Context,
      let checked := e.analyze ctx
      checked.expr.parts.map typing = e.parts.map typing ∧
      (checked.ok = true →
        ∀ p ∈ checked.expr.parts, p.typing ≠ .illTyped ∧ p.ty? = p.typing.ty?) ∧
      (checked.ok = true ↔ AllRight ctx.locals e.evaluationOrder) := by
  refine ⟨h.consistent.typing_eq, fun ctx => ⟨e.map_typing_parts_analyze ctx, fun ok => ?_, ?_⟩⟩
  · have right := (analyze_meets h.consistent ctx).ok_iff.mp ok
    have kept := e.map_typing_parts_analyze ctx
    rw [analyze_eq_typed h.consistent ok, parts_typed] at kept ⊢
    rw [List.map_map, List.map_inj_left] at kept
    refine List.forall_mem_map.mpr fun p mem => ?_
    have same : p.typed.typing = p.typing := kept p mem
    rw [same, ty?_typed, ty?_typing]
    exact ⟨right.typing_ne_illTyped p (e.evaluationOrder_perm_parts.mem_iff.mpr mem), rfl⟩
  · exact (analyze_meets h.consistent ctx).ok_iff

/-- In `(m = h)[m]` for a hash object `h` of integers, one analysis stops at the read of `h` and
another one at the assignment, which leaves the type of `h` behind.  Where `h` is set and `m` is
declared the analysis comes through, for `m` is assigned before it is read. -/
theorem typing_context_free_of_assignment :
    let source : Expr := .read (.synthetic "h") (.map .int) none
    let built : Expr := .index (.synthetic "[") (.assign (.synthetic "m") source none)
      (.read (.synthetic "m") (.map .int) none) none
    let nowhere := Context.start default .empty default
    let halfway := Context.start default ⟨[("h", .set)]⟩ default
    let ctx := Context.start default ⟨[("h", .set), ("m", .unset)]⟩ default
    let e := ((built.analyze nowhere).expr.analyze halfway).expr
    let checked := e.analyze ctx
    e.Arises ∧ e.parts.map ty? = [none, none, some (.map .int), none] ∧
      (∀ p ∈ e.parts, ∀ ty ∈ p.ty?, p.typing = .typed ty) ∧
      checked.expr.parts.map typing = e.parts.map typing ∧
      checked.ok = true ∧ checked.expr.ty? = some (.maybeUndefined .int) ∧
      (∀ p ∈ checked.expr.parts, p.typing ≠ .illTyped ∧ p.ty? = p.typing.ty?) ∧
      AllRight ctx.locals e.evaluationOrder ∧ ¬ AllRight halfway.locals e.evaluationOrder := by
  intro source built nowhere halfway ctx e checked
  have arises : e.Arises :=
    .analyzed (.analyzed (.index _ (.assign _ (.read _ _)) (.read _ _)) nowhere) halfway
  obtain ⟨found, checks⟩ := typing_context_free arises
  obtain ⟨kept, typed, right⟩ := checks ctx
  have ok : checked.ok = true := by decide +kernel
  have wrong : ¬ (e.analyze halfway).ok = true := by decide +kernel
  exact ⟨arises, by decide +kernel, found, kept, ok, by decide +kernel, typed ok, right.mp ok,
    fun through => wrong ((checks halfway).2.2.mpr through)⟩

end Expr

end BodyCheck
