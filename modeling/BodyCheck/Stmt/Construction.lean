import BodyCheck.Expr.Analysis
import BodyCheck.Stmt.Outcome

/-!
# Constructor invocations

Which class and which constructor the invocation of a constructor means.

## Main definitions

* `QualifiedName.resolve` — the class that a name means in a context.
* `ClassDef.resolveConstructor` — the constructor of a class that arguments pick.
* `Simple.analyzeConstruct` — the analysis of a constructor invocation.

## Design notes

A constructor is never inherited.  A class that declares none can be constructed without
arguments.  The resolution of an invocation is only ever replaced by a later one: an analysis
that finds none leaves the one of an earlier analysis in place.
-/

namespace BodyCheck

/-- The class that a name means: the superclass of the current class for a bare `super`, and a
visible class otherwise. -/
def QualifiedName.resolve (name : QualifiedName) (ctx : Context) : Except Problem ClassDef :=
  if name.isBareSuper then
    match ctx.function.cls.parent? with
    | some parent => .ok parent
    | none => .error (.noSuperclass ctx.function.cls.name)
  else
    match ctx.classes.lookup name.aliasName? name.token.value with
    | some cls => .ok cls
    | none => .error (.unknownClass name.token.value name.aliasName?)

/-- The constructor of a class that arguments of the given types pick. -/
def ClassDef.resolveConstructor (cls : ClassDef) (args : List Ty) :
    Except OverloadError Resolution :=
  match cls.constructorOverloads? with
  | some overloads => (Signature.resolve overloads args).map fun signature => ⟨cls, some signature⟩
  | none => if args.isEmpty then .ok ⟨cls, none⟩ else .error .noMatch

/-- Analyzes a constructor invocation: the class first, then the arguments in order, and last
the choice among the constructors. -/
def Simple.analyzeConstruct (target : QualifiedName) (args : List Expr)
    (resolution : Option Resolution) (ctx : Context) : Simple × Context :=
  match target.resolve ctx with
  | .error problem => (construct target args resolution, ctx.report problem target.token)
  | .ok cls =>
    let analyzed := Expr.analyzeArgs args ctx
    let args := analyzed.1
    let ctx := analyzed.2.1
    match analyzed.2.2 with
    | none => (construct target args resolution, ctx)
    | some tys =>
      match cls.resolveConstructor tys with
      | .ok found => (construct target args (some found), ctx)
      | .error error =>
        (construct target args resolution, ctx.report (.overload error) target.token)

end BodyCheck
