import BodyCheck.Proofs.Reanalysis

/-!
# What constructor invocations mean

An analysis of a constructor invocation finds out what the invocation means, or it fails.  What an
earlier analysis found is replaced in the first case, and stays in the second.

## Main definitions

* `QualifiedName.construction?` — what an invocation means in a context.
* `QualifiedName.Unresolved` — the reasons for which it means nothing.

## Main statements

* `QualifiedName.construction?_eq_none_iff` — an invocation means nothing for these reasons only.
* `Stmt.resolutions_reanalyzed` — after analyses in several contexts an invocation means what the
  latest analysis that did not fail has found, also if others came after it.
* `Stmt.resolution_outlives_failure` — so a failing analysis leaves behind a meaning that the
  invocation does not have.

## Design notes

The arguments carry what earlier analyses found about them, and so what an invocation means would
seem to depend on them; by the independence of analyses it does not.
-/

namespace BodyCheck

/-- Arguments pick no constructor of a class if it declares none and there are arguments, or if
they pick none of those it declares. -/
theorem ClassDef.resolveConstructor_eq_error_iff {cls : ClassDef} {tys : List Ty}
    {error : OverloadError} : cls.resolveConstructor tys = .error error ↔
      (cls.constructorOverloads? = none ∧ tys ≠ [] ∧ error = .noMatch) ∨
        ∃ overloads, cls.constructorOverloads? = some overloads ∧
          Signature.resolve overloads tys = .error error := by
  rw [resolveConstructor]
  cases cls.constructorOverloads? with
  | none => cases tys <;> simp [eq_comm (a := error)]
  | some overloads => cases chosen : Signature.resolve overloads tys <;> simp [chosen, Except.map]

namespace QualifiedName

variable {target : QualifiedName} {args : List Expr} {ctx : Context}

/-- What the invocation of a constructor means in a context, if it means anything there: the class
of the name, and the constructor that the types of the arguments pick. -/
def construction? (target : QualifiedName) (args : List Expr) (ctx : Context) : Option Resolution :=
  match target.resolve ctx, (Expr.analyzeArgs args ctx).2.2 with
  | .ok cls, some tys => (cls.resolveConstructor tys).toOption
  | _, _ => none

/-- The reasons for which an invocation means nothing in a context. -/
inductive Unresolved (target : QualifiedName) (args : List Expr) (ctx : Context) : Prop
  /-- There is no visible class of the name, or no superclass. -/
  | noClass (problem : Problem) (missing : target.resolve ctx = .error problem)
  /-- An argument is wrong, or nothing is known about its type. -/
  | noTypes (cls : ClassDef) (found : target.resolve ctx = .ok cls)
      (untyped : (Expr.analyzeArgs args ctx).2.2 = none)
  /-- There are arguments, and the class declares no constructor. -/
  | noConstructor (cls : ClassDef) (tys : List Ty) (found : target.resolve ctx = .ok cls)
      (typed : (Expr.analyzeArgs args ctx).2.2 = some tys)
      (undeclared : cls.constructorOverloads? = none) (given : tys ≠ [])
  /-- The types of the arguments pick none of the constructors. -/
  | noOverload (cls : ClassDef) (tys : List Ty) (overloads : List Signature) (error : OverloadError)
      (found : target.resolve ctx = .ok cls) (typed : (Expr.analyzeArgs args ctx).2.2 = some tys)
      (declared : cls.constructorOverloads? = some overloads)
      (unpicked : Signature.resolve overloads tys = .error error)

/-- There are no other reasons for which an invocation means nothing. -/
theorem construction?_eq_none_iff :
    target.construction? args ctx = none ↔ target.Unresolved args ctx := by
  constructor
  · intro nothing
    cases found : target.resolve ctx with
    | error problem => exact .noClass problem found
    | ok cls =>
      cases typed : (Expr.analyzeArgs args ctx).2.2 with
      | none => exact .noTypes cls found typed
      | some tys =>
        cases chosen : cls.resolveConstructor tys with
        | ok resolution => simp [construction?, found, typed, chosen, Except.toOption] at nothing
        | error error =>
          rcases ClassDef.resolveConstructor_eq_error_iff.mp chosen with
            ⟨undeclared, given, -⟩ | ⟨overloads, declared, unpicked⟩
          · exact .noConstructor cls tys found typed undeclared given
          · exact .noOverload cls tys overloads error found typed declared unpicked
  · rintro (⟨problem, missing⟩ | ⟨cls, found, untyped⟩ |
      ⟨cls, tys, found, typed, undeclared, given⟩ |
      ⟨cls, tys, overloads, error, found, typed, declared, unpicked⟩)
    · simp [construction?, missing]
    · simp [construction?, found, untyped]
    · have chosen : cls.resolveConstructor tys = .error .noMatch :=
        ClassDef.resolveConstructor_eq_error_iff.mpr (.inl ⟨undeclared, given, rfl⟩)
      simp [construction?, found, typed, chosen, Except.toOption]
    · have chosen : cls.resolveConstructor tys = .error error :=
        ClassDef.resolveConstructor_eq_error_iff.mpr (.inr ⟨overloads, declared, unpicked⟩)
      simp [construction?, found, typed, chosen, Except.toOption]

/-- What an invocation means does not depend on what has been found about its arguments. -/
theorem construction?_asBuilt (h : ∀ e ∈ args, e.Consistent) :
    target.construction? (args.map Expr.asBuilt) ctx = target.construction? args ctx := by
  rw [construction?, construction?, Expr.analyzeArgs_asBuilt h]

end QualifiedName

/-- An analysis replaces what an invocation was found to mean only if it finds a meaning. -/
theorem Simple.analyze_construct (target : QualifiedName) (args : List Expr)
    (known : Option Resolution) (ctx : Context) :
    ∃ args', ((construct target args known).analyze ctx).node
      = construct target args' ((target.construction? args ctx).or known) := by
  rw [analyze, analyzeConstruct, QualifiedName.construction?]
  cases target.resolve ctx with
  | error problem => exact ⟨args, rfl⟩
  | ok cls =>
    refine ⟨(Expr.analyzeArgs args ctx).1, ?_⟩
    dsimp only
    cases (Expr.analyzeArgs args ctx).2.2 with
    | none => rfl
    | some tys =>
      cases chosen : cls.resolveConstructor tys <;>
        simp [chosen, Except.toOption, Outcome.done]

namespace Stmt

/-- **What is kept of repeated analyses.**  After analyses in several contexts, an invocation is
taken to mean what the latest of them that resolved it has found, or what it was taken to mean
before if none of them did. -/
theorem resolutions_reanalyzed (target : QualifiedName) {args : List Expr}
    (h : ∀ e ∈ args, e.Consistent) (known : Option Resolution) (history : List Context) :
    ((simple (.construct target args known)).reanalyzed history).resolutions
      = [(history.reverse.findSome? (target.construction? args)).or known] := by
  induction history generalizing args known with
  | nil => rfl
  | cons ctx rest ih =>
    obtain ⟨args', step⟩ := Simple.analyze_construct target args known ctx
    -- The analyzed arguments differ from `args` only in what has been found about them.
    have consistent : ∀ e ∈ args', e.Consistent := by
      have kept := Simple.consistent_analyze (s := .construct target args known) h ctx
      rwa [step] at kept
    have sameArgs : args'.map Expr.asBuilt = args.map Expr.asBuilt := by
      have kept := Simple.asBuilt_analyze (.construct target args known) ctx
      rw [step] at kept
      injection kept
    have sameMeaning : target.construction? args' = target.construction? args := by
      funext ctx
      rw [← QualifiedName.construction?_asBuilt consistent, sameArgs,
        QualifiedName.construction?_asBuilt h]
    have stepStmt : ((simple (.construct target args known)).analyze ctx).node
        = simple (.construct target args' ((target.construction? args ctx).or known)) := by
      rw [analyze, Outcome.node_passing, Outcome.node_map, step]
    rw [reanalyzed, List.foldl_cons, stepStmt, ← reanalyzed, ih consistent, sameMeaning,
      List.reverse_cons, List.findSome?_append, List.findSome?_singleton, Option.or_assoc]

/-- An invocation with an `int` keeps the constructor of the first context when in the second a
class of that name wants a string, and in the third there is no such class. -/
theorem resolutions_reanalyzed_of_contexts :
    let wanting (ty : Ty) : ClassDef :=
      .root "A" [⟨"constructor", .function [⟨[ty], .void⟩]⟩]
    let seeing (classes : Registry) : Context := .start default .empty classes
    let contexts := [seeing (Registry.empty.register (wanting .int)),
      seeing (Registry.empty.register (wanting .string)), seeing .empty]
    let target : QualifiedName := ⟨.synthetic "A", none⟩
    let one : Expr := .value (.synthetic "1") (.typed .int) none
    (∀ e ∈ [one], e.Consistent) ∧
      ((simple (.construct target [one] none)).reanalyzed contexts).resolutions
        = [some ⟨wanting .int, some ⟨[.int], .void⟩⟩] := by
  intro wanting seeing contexts target one
  have consistent : ∀ e ∈ [one], e.Consistent := by
    simp [one, Expr.Consistent]
  refine ⟨consistent, ?_⟩
  rw [resolutions_reanalyzed target consistent none contexts]
  decide +kernel

/-- An invocation of a class without constructors that means nothing in the context of its latest
analysis, where there is no such class, but is still taken to mean what it meant before. -/
theorem resolution_outlives_failure :
    let a : ClassDef := .root "A" []
    let target : QualifiedName := ⟨.synthetic "A", none⟩
    let invocation : Stmt := simple (.construct target [] none)
    let here := Context.start default .empty (Registry.empty.register a)
    let elsewhere := Context.start default .empty .empty
    invocation.IsNew ∧ target.construction? [] elsewhere = none ∧
      (invocation.reanalyzed [here, elsewhere]).resolutions = [some ⟨a, none⟩] := by
  intro a target invocation here elsewhere
  exact ⟨rfl, by decide +kernel, by decide +kernel⟩

end Stmt

end BodyCheck
