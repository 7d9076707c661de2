import BodyCheck.Stmt.Construction
import Mathlib.Data.List.Forall2

/-!
# Overloads

Which signature a call picks, and what is reported of a call that picks none.

## Main definitions

* `Signature.Exact` and `Signature.Admits` — the two ways in which a signature may fit a call.
* `Signature.Resolves` — what a call comes to, said without the search for it.
* `Signature.Choice` and `Signature.choose` — the signature that is picked and what is reported.

## Main statements

* `Signature.resolve_eq_iff` — the search finds what the call comes to.
* `Signature.resolve_perm` — it does not depend on the order of overloads that differ.
* `Simple.analyzeConstruct_chooses` — an invocation of a constructor goes by what is chosen.
* `Signature.overloads_resolved` — all of this about any call.

## Design notes

Overloads are told apart by their places.  So a signature that is written twice admits the same
arguments at two places, and only if it matches them exactly the first place is taken.
-/

namespace BodyCheck

namespace Signature

variable {s t : Signature} {overloads others : List Signature} {args : List Ty}

/-! ## One signature -/

/-- The parameters have the types of the arguments, one by one. -/
def Exact (args : List Ty) (s : Signature) : Prop :=
  List.Forall₂ (fun param arg => param.same arg = true) s.params args

/-- The arguments convert to the parameters, one by one. -/
def Admits (args : List Ty) (s : Signature) : Prop :=
  List.Forall₂ (fun param arg => arg.convertsTo param = true) s.params args

/-- Lists agree in all places just if they are as long and their elements are related one by one. -/
theorem isEqv_iff_forall₂ {params : List Ty} (r : Ty → Ty → Bool) :
    params.isEqv args r = true ↔
      List.Forall₂ (fun param arg => r param arg = true) params args := by
  induction params generalizing args with
  | nil => cases args <;> simp [List.isEqv]
  | cons param params ih => cases args <;> simp [List.isEqv, ih]

/-- The test for an exact match says what it should. -/
theorem matchesExactly_iff : s.matchesExactly args = true ↔ s.Exact args :=
  isEqv_iff_forall₂ _

theorem accepts_iff : s.accepts args = true ↔ s.Admits args :=
  isEqv_iff_forall₂ _

/-- A signature that matches exactly admits the arguments, as a type converts to itself. -/
theorem Exact.admits (h : s.Exact args) : s.Admits args :=
  accepts_iff.mp (accepts_of_matchesExactly (matchesExactly_iff.mpr h))

/-- Types are the same one by one if they are the same by name. -/
theorem exact_iff : s.Exact args ↔ s.params.map Ty.nominal = args.map Ty.nominal := by
  simp only [Exact, Ty.same_iff]
  rw [← List.forall₂_eq_eq_eq, List.forall₂_map_left_iff, List.forall₂_map_right_iff]

/-- Two signatures that match the same arguments have equal parameters. -/
theorem Exact.params (hs : s.Exact args) (ht : t.Exact args) : s.Exact t.params :=
  exact_iff.mpr ((exact_iff.mp hs).trans (exact_iff.mp ht).symm)

/-! ## One call -/

/-- The first of the overloads that matches the arguments exactly. -/
def IsFirstExact (overloads : List Signature) (args : List Ty) (s : Signature) : Prop :=
  ∃ before after, overloads = before ++ s :: after ∧ s.Exact args ∧ ∀ t ∈ before, ¬ t.Exact args

/-- What stands at the only place among the overloads where the arguments are admitted. -/
def IsOnlyAdmitting (overloads : List Signature) (args : List Ty) (s : Signature) : Prop :=
  ∃ before after, overloads = before ++ s :: after ∧ s.Admits args ∧
    ∀ t ∈ before ++ after, ¬ t.Admits args

/-- The arguments are admitted at two places among the overloads, or more. -/
def SeveralAdmit (overloads : List Signature) (args : List Ty) : Prop :=
  ∃ s t, [s, t].Sublist overloads ∧ s.Admits args ∧ t.Admits args

/-- What a call comes to: the first exact match if there is one, and else the only signature that
admits the arguments, or an error if there is none or if there are several. -/
inductive Resolves (overloads : List Signature) (args : List Ty) :
    Except OverloadError Signature → Prop
  | exact (s : Signature) (first : IsFirstExact overloads args s) : Resolves overloads args (.ok s)
  | only (s : Signature) (inexact : ∀ t ∈ overloads, ¬ t.Exact args)
      (only : IsOnlyAdmitting overloads args s) : Resolves overloads args (.ok s)
  | noMatch (unfit : ∀ t ∈ overloads, ¬ t.Admits args) : Resolves overloads args (.error .noMatch)
  | ambiguous (inexact : ∀ t ∈ overloads, ¬ t.Exact args)
      (several : SeveralAdmit overloads args) : Resolves overloads args (.error .ambiguous)

/-- The first exact match is what the search finds. -/
theorem find?_matchesExactly_eq_some_iff :
    overloads.find? (·.matchesExactly args) = some s ↔ IsFirstExact overloads args s := by
  simp only [List.find?_eq_some_iff_append, IsFirstExact, matchesExactly_iff, Bool.not_eq_true',
    ← Bool.not_eq_true]
  constructor
  · rintro ⟨isExact, before, after, split, earlier⟩
    exact ⟨before, after, split, isExact, earlier⟩
  · rintro ⟨before, after, split, isExact, earlier⟩
    exact ⟨isExact, before, after, split, earlier⟩

theorem find?_matchesExactly_eq_none_iff :
    overloads.find? (·.matchesExactly args) = none ↔ ∀ t ∈ overloads, ¬ t.Exact args := by
  simp only [List.find?_eq_none, matchesExactly_iff]

/-- No signature is left just if none admits the arguments. -/
theorem filter_accepts_eq_nil_iff :
    overloads.filter (·.accepts args) = [] ↔ ∀ t ∈ overloads, ¬ t.Admits args := by
  simp only [List.filter_eq_nil_iff, accepts_iff]

/-- One is left just if it stands at the only place where the arguments are admitted. -/
theorem filter_accepts_eq_singleton_iff :
    overloads.filter (·.accepts args) = [s] ↔ IsOnlyAdmitting overloads args s := by
  simp only [List.filter_eq_cons_iff, List.filter_eq_nil_iff, accepts_iff, IsOnlyAdmitting,
    List.forall_mem_append]
  constructor
  · rintro ⟨before, after, split, earlier, admits, later⟩
    exact ⟨before, after, split, admits, earlier, later⟩
  · rintro ⟨before, after, split, admits, earlier, later⟩
    exact ⟨before, after, split, earlier, admits, later⟩

/-- Two or more are left just if the arguments are admitted at two places. -/
theorem filter_accepts_eq_cons_cons_iff :
    (∃ s t rest, overloads.filter (·.accepts args) = s :: t :: rest) ↔
      SeveralAdmit overloads args := by
  constructor
  · rintro ⟨s, t, rest, admitting⟩
    have admits : ∀ u ∈ s :: t :: rest, u.Admits args := by
      rw [← admitting]
      exact fun u mem => accepts_iff.mp (List.mem_filter.mp mem).2
    have places : [s, t].Sublist (overloads.filter (·.accepts args)) := by
      rw [admitting]
      exact List.sublist_append_left [s, t] rest
    exact ⟨s, t, places.trans List.filter_sublist, admits s (by simp), admits t (by simp)⟩
  · rintro ⟨s, t, places, admitsS, admitsT⟩
    have both : [s, t].filter (·.accepts args) = [s, t] := by
      simp [accepts_iff.mpr admitsS, accepts_iff.mpr admitsT]
    have counted := (places.filter (·.accepts args)).length_le
    rw [both] at counted
    generalize overloads.filter (·.accepts args) = admitting at counted ⊢
    rcases admitting with _ | ⟨u, _ | ⟨v, rest⟩⟩
    · simp at counted
    · simp at counted
    · exact ⟨u, v, rest, rfl⟩

/-- The search among the overloads finds what the call comes to. -/
theorem resolves_resolve (overloads : List Signature) (args : List Ty) :
    Resolves overloads args (resolve overloads args) := by
  rw [resolve]
  split
  next s found => exact .exact s (find?_matchesExactly_eq_some_iff.mp found)
  next found =>
    have inexact := find?_matchesExactly_eq_none_iff.mp found
    split
    next admitting => exact .noMatch (filter_accepts_eq_nil_iff.mp admitting)
    next s admitting => exact .only s inexact (filter_accepts_eq_singleton_iff.mp admitting)
    next s t rest admitting =>
      exact .ambiguous inexact (filter_accepts_eq_cons_cons_iff.mp ⟨s, t, rest, admitting⟩)

/-- A call comes to one thing only. -/
theorem resolve_eq_iff {result : Except OverloadError Signature} :
    resolve overloads args = result ↔ Resolves overloads args result := by
  refine ⟨fun same => same ▸ resolves_resolve overloads args, ?_⟩
  rintro (⟨s, first⟩ | ⟨s, inexact, only⟩ | ⟨unfit⟩ | ⟨inexact, several⟩)
  · rw [resolve, find?_matchesExactly_eq_some_iff.mpr first]
  · rw [resolve, find?_matchesExactly_eq_none_iff.mpr inexact,
      filter_accepts_eq_singleton_iff.mpr only]
  · have inexact : ∀ t ∈ overloads, ¬ t.Exact args := fun t mem exact => unfit t mem exact.admits
    rw [resolve, find?_matchesExactly_eq_none_iff.mpr inexact, filter_accepts_eq_nil_iff.mpr unfit]
  · obtain ⟨s, t, rest, admitting⟩ := filter_accepts_eq_cons_cons_iff.mpr several
    rw [resolve, find?_matchesExactly_eq_none_iff.mpr inexact, admitting]

/-- What a call comes to is one of the overloads and admits the arguments. -/
theorem Resolves.mem_and_admits (h : Resolves overloads args (.ok s)) :
    s ∈ overloads ∧ s.Admits args := by
  obtain ⟨before, after, rfl, admits⟩ : ∃ before after, overloads = before ++ s :: after ∧
      s.Admits args := by
    rcases h with ⟨_, before, after, split, isExact, -⟩ | ⟨_, -, before, after, split, admits, -⟩
    · exact ⟨before, after, split, isExact.admits⟩
    · exact ⟨before, after, split, admits⟩
  exact ⟨by simp, admits⟩

/-! ## The order of the overloads -/

/-- No two of the overloads have equal parameters. -/
def Distinct (overloads : List Signature) : Prop :=
  overloads.Pairwise fun s t => ¬ s.Exact t.params

/-- Of overloads that differ, one at most matches the arguments exactly. -/
theorem Distinct.filter_matchesExactly (h : Distinct overloads) (args : List Ty) :
    overloads.filter (·.matchesExactly args) = [] ∨
      ∃ s, overloads.filter (·.matchesExactly args) = [s] := by
  have isExact : ∀ u ∈ overloads.filter (·.matchesExactly args), u.Exact args :=
    fun u mem => matchesExactly_iff.mp (List.mem_filter.mp mem).2
  have differ : Distinct (overloads.filter (·.matchesExactly args)) := List.Pairwise.filter _ h
  generalize overloads.filter (·.matchesExactly args) = matching at isExact differ ⊢
  rcases matching with _ | ⟨s, _ | ⟨t, rest⟩⟩
  · exact .inl rfl
  · exact .inr ⟨s, rfl⟩
  · exact absurd ((isExact s (by simp)).params (isExact t (by simp)))
      (List.rel_of_pairwise_cons differ (by simp))

/-- The order of overloads that differ makes no difference to a call. -/
theorem resolve_perm (h : Distinct overloads) (reordered : overloads.Perm others)
    (args : List Ty) : resolve others args = resolve overloads args := by
  have sameExact : others.find? (·.matchesExactly args)
      = overloads.find? (·.matchesExactly args) := by
    have matching := (reordered.filter (·.matchesExactly args)).symm
    rw [← List.head?_filter, ← List.head?_filter]
    rcases h.filter_matchesExactly args with none | ⟨s, one⟩
    · rw [none, List.perm_nil] at matching
      rw [matching, none]
    · rw [one, List.perm_singleton] at matching
      rw [matching, one]
  have admitting := (reordered.filter (·.accepts args)).symm
  rw [resolve, resolve, sameExact]
  split
  · rfl
  · generalize overloads.filter (·.accepts args) = these at admitting
    generalize others.filter (·.accepts args) = those at admitting
    rcases these with _ | ⟨s, _ | ⟨t, rest⟩⟩
    · rw [List.perm_nil.mp admitting]
    · rw [List.perm_singleton.mp admitting]
    · have counted := admitting.length_eq
      rcases those with _ | ⟨u, _ | ⟨v, rest'⟩⟩
      · simp at counted
      · simp at counted
      · rfl

/-! ## What is reported -/

/-- What comes of a call: the signature that it picks if it picks one, and what is reported. -/
structure Choice where
  picked : Option Signature
  reported : List Diagnostic

/-- Chooses the signature for a call; that there is none to be chosen is reported at the token. -/
def choose (overloads : List Signature) (token : Token) (args : List Ty) : Choice :=
  match resolve overloads args with
  | .ok s => ⟨some s, []⟩
  | .error error => ⟨none, [⟨.overload error, token⟩]⟩

/-- The choice is the one that the call comes to. -/
theorem picked_choose_eq_some_iff {token : Token} :
    (choose overloads token args).picked = some s ↔ Resolves overloads args (.ok s) := by
  rw [choose, ← resolve_eq_iff]
  cases resolve overloads args <;> simp

/-- The two ways in which a call can fail are told apart by what is said of them. -/
theorem message_overload_eq_iff {error other : OverloadError} :
    (Problem.overload error).message = (Problem.overload other).message ↔ error = other := by
  have differ : (Problem.overload .noMatch).message ≠ (Problem.overload .ambiguous).message := by
    decide +kernel
  cases error <;> cases other <;> simp [differ, differ.symm]

/-- What is said of a call is the error that it comes to. -/
theorem messages_choose_eq_iff (token : Token) (error : OverloadError) :
    (choose overloads token args).reported.map Diagnostic.message
        = [(Problem.overload error).message] ↔
      Resolves overloads args (.error error) := by
  rw [choose, ← resolve_eq_iff]
  cases resolve overloads args with
  | ok s => simp
  | error e => simp [Diagnostic.message, message_overload_eq_iff]

end Signature

/-- If the class is found and declares constructors, and the types of the arguments are known, the
analysis of an invocation goes by what is chosen, and reports what is reported of the choice. -/
theorem Simple.analyzeConstruct_chooses {target : QualifiedName} {args : List Expr} {ctx : Context}
    {cls : ClassDef} {overloads : List Signature} {tys : List Ty}
    (found : target.resolve ctx = .ok cls) (declared : cls.constructorOverloads? = some overloads)
    (typed : (Expr.analyzeArgs args ctx).2.2 = some tys) (known : Option Resolution) :
    let choice := Signature.choose overloads target.token tys
    let analyzed := Expr.analyzeArgs args ctx
    analyzeConstruct target args known ctx
      = (construct target analyzed.1 ((choice.picked.map fun s => ⟨cls, some s⟩).or known),
          { analyzed.2.1 with diagnostics := analyzed.2.1.diagnostics ++ choice.reported }) := by
  intro choice analyzed
  simp only [analyzeConstruct, found, typed, ClassDef.resolveConstructor, declared, choice,
    Signature.choose, analyzed]
  cases Signature.resolve overloads tys with
  | ok s => simp [Except.map]
  | error error => rfl

namespace Signature

/-- **Overloads.**  A call picks one of the overloads and nothing is reported, or it picks none and
one problem is reported, with a type and at the token of the call.  It picks the first exact match,
and if there is none, what stands at the only place where the arguments are admitted.  With no exact
match it is ambiguous if they are admitted at several places, and it has no match if they are
admitted nowhere.  What is picked admits the arguments.  If no two overloads have equal parameters,
their order does not matter.  This is what the invocation of a constructor goes by. -/
theorem overloads_resolved (overloads : List Signature) (token : Token) (args : List Ty) :
    let choice := choose overloads token args
    ((∃ s ∈ overloads, choice = ⟨some s, []⟩) ∨
      ∃ d, choice = ⟨none, [d]⟩ ∧ d.problem.kind = .type ∧ d.token = token) ∧
    (∀ s, choice.picked = some s ↔ IsFirstExact overloads args s ∨
      (∀ t ∈ overloads, ¬ t.Exact args) ∧ IsOnlyAdmitting overloads args s) ∧
    (choice.reported.map Diagnostic.message = ["result of function resolution is ambiguous"] ↔
      (∀ t ∈ overloads, ¬ t.Exact args) ∧ SeveralAdmit overloads args) ∧
    (choice.reported.map Diagnostic.message = ["no function with matching arguments"] ↔
      ∀ t ∈ overloads, ¬ t.Admits args) ∧
    (∀ s, choice.picked = some s → s.Admits args) ∧
    (Distinct overloads → ∀ others, overloads.Perm others → choose others token args = choice) ∧
    ∀ (target : QualifiedName) (arguments : List Expr) (known : Option Resolution) (ctx : Context)
      (cls : ClassDef),
      target.token = token → target.resolve ctx = .ok cls →
      cls.constructorOverloads? = some overloads →
      (Expr.analyzeArgs arguments ctx).2.2 = some args →
      let analyzed := Expr.analyzeArgs arguments ctx
      Simple.analyzeConstruct target arguments known ctx
        = (.construct target analyzed.1 ((choice.picked.map fun s => ⟨cls, some s⟩).or known),
            { analyzed.2.1 with diagnostics := analyzed.2.1.diagnostics ++ choice.reported }) := by
  intro choice
  refine ⟨?_, fun s => ?_, ?_, ?_, fun s picked => ?_, fun distinct others reordered => ?_, ?_⟩
  · cases result : resolve overloads args with
    | ok s =>
      have mem : s ∈ overloads := (resolve_eq_iff.mp result).mem_and_admits.1
      exact .inl ⟨s, mem, by simp only [choice, choose, result]⟩
    | error error =>
      exact .inr ⟨⟨.overload error, token⟩, by simp only [choice, choose, result], rfl, rfl⟩
  · rw [picked_choose_eq_some_iff]
    constructor
    · rintro (⟨_, first⟩ | ⟨_, inexact, only⟩)
      · exact .inl first
      · exact .inr ⟨inexact, only⟩
    · rintro (first | ⟨inexact, only⟩)
      · exact .exact s first
      · exact .only s inexact only
  · have said : choice.reported.map Diagnostic.message
        = ["result of function resolution is ambiguous"] ↔
          Resolves overloads args (.error .ambiguous) := messages_choose_eq_iff token .ambiguous
    rw [said]
    constructor
    · rintro (_ | _ | _ | ⟨inexact, several⟩)
      exact ⟨inexact, several⟩
    · rintro ⟨inexact, several⟩
      exact .ambiguous inexact several
  · have said : choice.reported.map Diagnostic.message = ["no function with matching arguments"] ↔
        Resolves overloads args (.error .noMatch) := messages_choose_eq_iff token .noMatch
    rw [said]
    constructor
    · rintro (_ | _ | ⟨unfit⟩)
      exact unfit
    · exact .noMatch
  · exact (picked_choose_eq_some_iff.mp picked).mem_and_admits.2
  · simp only [choice, choose, resolve_perm distinct reordered]
  · rintro target arguments known ctx cls rfl found declared typed
    exact Simple.analyzeConstruct_chooses found declared typed known

/-- Three overloads admit a number, and the last of them is an exact match; it is picked in either
order, also by the invocation of a constructor. -/
theorem overloads_resolved_of_number :
    let taking (ty : Ty) : Signature := ⟨[ty], .void⟩
    let overloads := [taking .variant, taking .int, taking .number]
    let cls : ClassDef := .root "A" [⟨"constructor", .function overloads⟩]
    let target : QualifiedName := ⟨.synthetic "A", none⟩
    let number (known : Option Ty) : Expr := .value (.synthetic "1") (.typed .number) known
    let ctx := Context.start default .empty (Registry.empty.register cls)
    Distinct overloads ∧ overloads.Perm overloads.reverse ∧
      choose overloads.reverse target.token [.number] = choose overloads target.token [.number] ∧
      (∀ t ∈ overloads, t.Admits [.number]) ∧
      target.resolve ctx = .ok cls ∧ cls.constructorOverloads? = some overloads ∧
      (Expr.analyzeArgs [number none] ctx).2.2 = some [.number] ∧
      Simple.analyzeConstruct target [number none] none ctx
        = (.construct target [number (some .number)] (some ⟨cls, some (taking .number)⟩), ctx) := by
  intro taking overloads cls target number ctx
  have distinct : Distinct overloads := by
    simp [Distinct, overloads, taking, exact_iff, Ty.nominal]
  have reordered : overloads.Perm overloads.reverse := (List.reverse_perm overloads).symm
  have found : target.resolve ctx = .ok cls := rfl
  have declared : cls.constructorOverloads? = some overloads := rfl
  have typed : (Expr.analyzeArgs [number none] ctx).2.2 = some [.number] := rfl
  obtain ⟨-, -, -, -, -, anyOrder, invoked⟩ := overloads_resolved overloads target.token [.number]
  refine ⟨distinct, reordered, anyOrder distinct _ reordered, ?_, found, declared, typed, ?_⟩
  · simp only [← accepts_iff]
    decide
  · rw [invoked target [number none] none ctx cls rfl found declared typed]
    rfl

end Signature

end BodyCheck
