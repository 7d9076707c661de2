import BodyCheck.Proofs.Construction
import BodyCheck.Proofs.Overloads

/-!
# Invocations of constructors

What an invocation of a constructor means, said without the steps in which the analysis finds it
out, and what else comes of the analysis.

## Main definitions

* `QualifiedName.cls?`, `ClassDef.Declares` — the class of a name, and the constructor of a class.
* `Expr.checkEach` and `Expr.StopsAt` — arguments analyzed in order, and the one that ends this.
* `QualifiedName.Means` — what an invocation means, and `QualifiedName.LacksType` — the one reason
  of which nothing is reported if it means nothing.
* `Resolution.Declared` — a meaning with a constructor that the class declares.

## Main statements

* `Expr.analyzeArgs_of_learnt`, `Expr.analyzeArgs_of_stopsAt` — the analysis of arguments, and
  `Expr.learnt_or_stopsAt` — there is no other way for it to go.
* `QualifiedName.construction?_eq_some_iff` — the analysis finds what the invocation means.
* `Stmt.declared_reanalyzed` — no analysis makes a statement mean an undeclared constructor.
* `Simple.invocation_resolved` — all that comes of the analysis of an invocation.

## Design notes

The arguments are analyzed one behind the other, so what an argument is found to be depends on the
context that those before it leave.  `Expr.checkEach` has them all, and `Expr.analyzeEach` the
context behind them; the analysis of the invocation agrees with both up to the first argument that
is wrong or of unknown type.
-/

namespace BodyCheck

/-! ## Classes and their constructors -/

/-- The class that a name stands for: the superclass of the current class if it is the word `super`
without an import, and otherwise the visible class of that import and name. -/
def QualifiedName.cls? (name : QualifiedName) (ctx : Context) : Option ClassDef :=
  if name.importAlias = none ∧ name.token.value = "super" then ctx.function.cls.parent?
  else ctx.classes.lookup (name.importAlias.map (·.value)) name.token.value

/-- The analysis finds the class of a name just if the name stands for one. -/
theorem QualifiedName.resolve_eq_ok_iff {name : QualifiedName} {ctx : Context} {cls : ClassDef} :
    name.resolve ctx = .ok cls ↔ name.cls? ctx = some cls := by
  have bare_iff : name.isBareSuper = true ↔
      name.importAlias = none ∧ name.token.value = "super" := by
    simp [isBareSuper]
  by_cases bare : name.isBareSuper = true
  · rw [resolve, if_pos bare, cls?, if_pos (bare_iff.mp bare)]
    cases ctx.function.cls.parent? <;> simp
  · rw [resolve, if_neg bare, cls?, if_neg (mt bare_iff.mpr bare), aliasName?]
    cases ctx.classes.lookup _ name.token.value <;> simp

/-- The first of the members that are written in the class under the name of constructors is a
function with these overloads. -/
def ClassDef.Declares (cls : ClassDef) (overloads : List Signature) : Prop :=
  ∃ before after, cls.members = before ++ ⟨"constructor", .function overloads⟩ :: after ∧
    ∀ member ∈ before, member.name ≠ "constructor"

/-- The overloads that are looked up are those that the class declares. -/
theorem ClassDef.constructorOverloads?_eq_some_iff {cls : ClassDef} {overloads : List Signature} :
    cls.constructorOverloads? = some overloads ↔ cls.Declares overloads := by
  simp only [constructorOverloads?, ownMember?, Declares, Option.bind_eq_some_iff,
    Option.map_eq_some_iff, List.find?_eq_some_iff_append]
  constructor
  · rintro ⟨_, ⟨⟨name, type⟩, ⟨isName, before, after, split, earlier⟩, rfl⟩, isFunction⟩
    cases type with
    | field ty => cases isFunction
    | function found =>
      cases isFunction
      obtain rfl : name = "constructor" := beq_iff_eq.mp isName
      exact ⟨before, after, split, fun member mem => by simpa using earlier member mem⟩
  · rintro ⟨before, after, split, earlier⟩
    exact ⟨_, ⟨_, ⟨rfl, before, after, split, fun member mem => by simpa using earlier member mem⟩,
      rfl⟩, rfl⟩

/-! ## Arguments -/

namespace Expr

/-- The analyses of expressions in order, whatever comes of each. -/
def checkEach : List Expr → Context → List Checked
  | [], _ => []
  | e :: es, ctx => e.analyze ctx :: checkEach es (e.analyze ctx).ctx

/-- The expression `e` is the first whose analysis finds something wrong or learns no type, if the
expressions are analyzed in order. -/
structure StopsAt (es : List Expr) (ctx : Context) (before : List Expr) (e : Expr)
    (after : List Expr) : Prop where
  split : es = before ++ e :: after
  typed : ∀ checked ∈ checkEach before ctx, checked.learnt? ≠ none
  stops : (e.analyze (analyzeEach before ctx)).learnt? = none

variable {es before after : List Expr} {e : Expr} {ctx : Context} {tys : List Ty}

/-- The analysis of arguments goes on behind the first just if a type is learnt of it. -/
theorem analyzeArgs_cons (e : Expr) (es : List Expr) (ctx : Context) :
    analyzeArgs (e :: es) ctx =
      match (e.analyze ctx).learnt? with
      | some ty =>
        let rest := analyzeArgs es (e.analyze ctx).ctx
        ((e.analyze ctx).expr :: rest.1, rest.2.1, rest.2.2.map (ty :: ·))
      | none => ((e.analyze ctx).expr :: es, (e.analyze ctx).ctx, none) := by
  rw [analyzeArgs, Checked.learnt?]
  cases (e.analyze ctx).ok <;> cases (e.analyze ctx).expr.ty? <;> rfl

/-- If the types of all arguments are learnt, they are all analyzed. -/
theorem analyzeArgs_of_learnt (h : (checkEach es ctx).map Checked.learnt? = tys.map some) :
    analyzeArgs es ctx = ((checkEach es ctx).map (·.expr), analyzeEach es ctx, some tys) := by
  induction es generalizing ctx tys with
  | nil =>
    obtain rfl := List.map_eq_nil_iff.mp h.symm
    rfl
  | cons e es ih =>
    cases tys with
    | nil => cases h
    | cons ty tys =>
      obtain ⟨learnt, rest⟩ := List.cons.inj h
      rw [analyzeArgs_cons, learnt, ih rest]
      rfl

/-- Nothing behind the argument at which the analysis stops is analyzed. -/
theorem analyzeArgs_of_stopsAt (h : StopsAt es ctx before e after) :
    analyzeArgs es ctx
      = ((checkEach before ctx).map (·.expr) ++ (e.analyze (analyzeEach before ctx)).expr :: after,
          (e.analyze (analyzeEach before ctx)).ctx, none) := by
  obtain ⟨rfl, typed, stops⟩ := h
  induction before generalizing ctx with
  | nil =>
    rw [List.nil_append, analyzeArgs_cons, show (e.analyze ctx).learnt? = none from stops]
    rfl
  | cons first before ih =>
    obtain ⟨learnt, rest⟩ := List.forall_mem_cons.mp typed
    obtain ⟨ty, isTy⟩ := Option.ne_none_iff_exists'.mp learnt
    rw [List.cons_append, analyzeArgs_cons, isTy, ih rest stops]
    rfl

/-- The types of all arguments are learnt, or the analysis stops at one of them. -/
theorem learnt_or_stopsAt (es : List Expr) (ctx : Context) :
    (∃ tys : List Ty, (checkEach es ctx).map Checked.learnt? = tys.map some) ∨
      ∃ before e after, StopsAt es ctx before e after := by
  induction es generalizing ctx with
  | nil => exact .inl ⟨[], rfl⟩
  | cons e es ih =>
    cases learnt : (e.analyze ctx).learnt? with
    | none => exact .inr ⟨[], e, es, rfl, nofun, learnt⟩
    | some ty =>
      rcases ih (e.analyze ctx).ctx with ⟨tys, typed⟩ | ⟨before, stop, after, split, typed, stops⟩
      · exact .inl ⟨ty :: tys, by rw [checkEach, List.map_cons, learnt, typed, List.map_cons]⟩
      · refine .inr ⟨e :: before, stop, after, by rw [split, List.cons_append], ?_, stops⟩
        exact List.forall_mem_cons.mpr ⟨by simp [learnt], typed⟩

/-- The types of arguments are known just if each is learnt where it is analyzed. -/
theorem analyzeArgs_eq_some_iff : (analyzeArgs es ctx).2.2 = some tys ↔
    (checkEach es ctx).map Checked.learnt? = tys.map some := by
  refine ⟨fun known => ?_, fun learnt => by rw [analyzeArgs_of_learnt learnt]⟩
  rcases learnt_or_stopsAt es ctx with ⟨tys', learnt⟩ | ⟨before, e, after, stops⟩
  · rw [analyzeArgs_of_learnt learnt] at known
    obtain rfl := Option.some.inj known
    exact learnt
  · rw [analyzeArgs_of_stopsAt stops] at known
    cases known

/-- If the types are known, none is lacking. -/
theorem learnt_of_map_eq (h : (checkEach es ctx).map Checked.learnt? = tys.map some) :
    ∀ checked ∈ checkEach es ctx, checked.learnt? ≠ none := by
  intro checked mem
  obtain ⟨ty, -, isTy⟩ := List.mem_map.mp (h ▸ List.mem_map_of_mem mem)
  rw [← isTy]
  exact Option.some_ne_none ty

/-- Nothing is reported of arguments whose types are learnt. -/
theorem diagnostics_analyzeEach (h : ∀ checked ∈ checkEach es ctx, checked.learnt? ≠ none) :
    (analyzeEach es ctx).diagnostics = ctx.diagnostics := by
  induction es generalizing ctx with
  | nil => rfl
  | cons e es ih =>
    obtain ⟨learnt, rest⟩ := List.forall_mem_cons.mp h
    obtain ⟨ty, isTy⟩ := Option.ne_none_iff_exists'.mp learnt
    have ok : (e.analyze ctx).ok = true := (Checked.learnt?_eq_some_iff.mp isTy).1
    exact (ih rest).trans (e.diagnostics_of_ok ctx ok)

end Expr

/-! ## Meanings -/

/-- The arguments of the given types pick a constructor that the class declares, or there are no
arguments and the class declares none. -/
theorem ClassDef.resolveConstructor_eq_ok_iff {cls : ClassDef} {tys : List Ty} {r : Resolution} :
    cls.resolveConstructor tys = .ok r ↔
      (∃ overloads s, cls.Declares overloads ∧ Signature.Resolves overloads tys (.ok s) ∧
        r = ⟨cls, some s⟩) ∨
      ((∀ overloads, ¬ cls.Declares overloads) ∧ tys = [] ∧ r = ⟨cls, none⟩) := by
  simp only [← constructorOverloads?_eq_some_iff, ← Signature.resolve_eq_iff]
  rw [resolveConstructor]
  cases cls.constructorOverloads? with
  | none => cases tys <;> simp [eq_comm (a := r)]
  | some overloads => cases picked : Signature.resolve overloads tys <;>
      simp [picked, Except.map, eq_comm (a := r)]

namespace QualifiedName

variable {target : QualifiedName} {args : List Expr} {ctx : Context} {r : Resolution}

/-- What the invocation of a constructor means in a context. -/
inductive Means (target : QualifiedName) (args : List Expr) (ctx : Context) : Resolution → Prop
  /-- The class declares constructors, and the types of the arguments pick this one of them. -/
  | declared (cls : ClassDef) (tys : List Ty) (overloads : List Signature) (s : Signature)
      (found : target.cls? ctx = some cls)
      (typed : (Expr.checkEach args ctx).map Expr.Checked.learnt? = tys.map some)
      (declares : cls.Declares overloads)
      (picks : Signature.Resolves overloads tys (.ok s)) : Means target args ctx ⟨cls, some s⟩
  /-- The class declares no constructor, and there are no arguments. -/
  | implicit (cls : ClassDef) (found : target.cls? ctx = some cls)
      (undeclared : ∀ overloads, ¬ cls.Declares overloads) (bare : args = []) :
      Means target args ctx ⟨cls, none⟩

/-- There is a class of the name, but an argument at which the analysis finds nothing wrong has no
type, and so the invocation has no meaning. -/
def LacksType (target : QualifiedName) (args : List Expr) (ctx : Context) : Prop :=
  (∃ cls, target.cls? ctx = some cls) ∧ ∃ before e after, Expr.StopsAt args ctx before e after ∧
    (e.analyze (Expr.analyzeEach before ctx)).ok = true

/-- An invocation means the constructor that its arguments pick, if all their types are learnt. -/
theorem means_iff : target.Means args ctx r ↔ ∃ cls tys, target.cls? ctx = some cls ∧
    (Expr.checkEach args ctx).map Expr.Checked.learnt? = tys.map some ∧
    cls.resolveConstructor tys = .ok r := by
  constructor
  · rintro (⟨cls, tys, overloads, s, found, typed, declares, picks⟩ | ⟨cls, found, undeclared, rfl⟩)
    · exact ⟨cls, tys, found, typed,
        ClassDef.resolveConstructor_eq_ok_iff.mpr (.inl ⟨overloads, s, declares, picks, rfl⟩)⟩
    · exact ⟨cls, [], found, rfl,
        ClassDef.resolveConstructor_eq_ok_iff.mpr (.inr ⟨undeclared, rfl, rfl⟩)⟩
  · rintro ⟨cls, tys, found, typed, chosen⟩
    rcases ClassDef.resolveConstructor_eq_ok_iff.mp chosen with
      ⟨overloads, s, declares, picks, rfl⟩ | ⟨undeclared, rfl, rfl⟩
    · exact .declared cls tys overloads s found typed declares picks
    · refine .implicit cls found undeclared ?_
      cases args with
      | nil => rfl
      | cons e es => cases typed

/-- The analysis finds what the invocation means. -/
theorem construction?_eq_some_iff :
    target.construction? args ctx = some r ↔ target.Means args ctx r := by
  rw [means_iff]
  simp only [← resolve_eq_ok_iff, ← Expr.analyzeArgs_eq_some_iff]
  rw [construction?]
  cases target.resolve ctx with
  | error problem => simp
  | ok cls =>
    cases (Expr.analyzeArgs args ctx).2.2 with
    | none => simp
    | some tys => cases chosen : cls.resolveConstructor tys <;> simp [chosen, Except.toOption]

end QualifiedName

/-! ## Histories -/

/-- If a resolution has a constructor, it is one that its class declares. -/
def Resolution.Declared (r : Resolution) : Prop :=
  ∀ s, r.signature = some s → ∃ overloads, r.cls.Declares overloads ∧ s ∈ overloads

/-- What an invocation means is declared: a constructor that arguments pick is one of its class. -/
theorem QualifiedName.Means.declared_resolution {target : QualifiedName} {args : List Expr}
    {ctx : Context} {r : Resolution} (h : target.Means args ctx r) : r.Declared := by
  rintro s isConstructor
  rcases h with ⟨cls, tys, overloads, picked, -, -, declares, picks⟩ | ⟨cls, -, -, -⟩
  · obtain rfl : picked = s := Option.some.inj isConstructor
    exact ⟨overloads, declares, picks.mem_and_admits.1⟩
  · cases isConstructor

/-- All resolutions that have been found are of declared constructors. -/
def Resolution.AllDeclared (resolutions : List (Option Resolution)) : Prop :=
  ∀ r, some r ∈ resolutions → r.Declared

/-- The resolutions in two parts are declared just if those in each part are. -/
theorem Resolution.allDeclared_append {left right : List (Option Resolution)} :
    AllDeclared (left ++ right) ↔ AllDeclared left ∧ AllDeclared right := by
  simp only [AllDeclared, List.mem_append, or_imp, forall_and]

namespace Simple

/-- The analysis of a simple statement finds declared constructors and keeps those known before. -/
theorem declared_analyze {s : Simple} (h : Resolution.AllDeclared s.resolutions) (ctx : Context) :
    Resolution.AllDeclared (s.analyze ctx).node.resolutions := by
  cases s with
  | construct target args known =>
    obtain ⟨args', node⟩ := analyze_construct target args known ctx
    intro r found
    rw [node, resolutions, List.mem_singleton, eq_comm, Option.or_eq_some_iff] at found
    rcases found with means | ⟨-, rfl⟩
    · exact (QualifiedName.construction?_eq_some_iff.mp means).declared_resolution
    · exact h r (.head _)
  | caseLabel keyword e =>
    rw [analyze, analyzeCase]
    split
    · split <;> exact h
    · exact h
  | assert keyword exprs => cases exprs <;> exact h
  | expression e | ret keyword e | delete keyword e | jump kind keyword label
  | defaultLabel keyword | log keyword exprs => exact h

end Simple

namespace Stmt

open Resolution (AllDeclared allDeclared_append)

mutual

/-- The analysis of a statement makes its invocations mean declared constructors only. -/
theorem declared_analyze : (s : Stmt) → AllDeclared s.resolutions → (ctx : Context) →
    AllDeclared (s.analyze ctx).node.resolutions
  | simple s, h, ctx => by
    rw [analyze, Outcome.node_passing, Outcome.node_map]
    exact Simple.declared_analyze h ctx
  | breakable keyword label header body, h, ctx => by
    rw [analyze, Outcome.node_passing]
    exact declared_analyzeList body h _
  | ifElse keyword cond onTrue onFalse, h, ctx => by
    obtain ⟨hTrue, hFalse⟩ := allDeclared_append.mp h
    rw [analyze, Outcome.node_passing, Outcome.node_map, resolutions, allDeclared_append,
      Outcome.fst_node_andThen, Outcome.node_within]
    refine ⟨declared_analyzeList onTrue hTrue _, ?_⟩
    exact Outcome.snd_node_andThen (p := fun arm => AllDeclared (resolutionsOfList arm)) hFalse
      fun ctx => declared_analyzeList onFalse hFalse _
  | guarded keyword body caught handler finalizer, h, ctx => by
    obtain ⟨hTried, hFinalizer⟩ := allDeclared_append.mp h
    obtain ⟨hBody, hHandler⟩ := allDeclared_append.mp hTried
    rw [analyze, Outcome.node_passing, Outcome.node_map, resolutions, allDeclared_append,
      allDeclared_append, Outcome.fst_node_andThen, Outcome.fst_node_andThen, Outcome.node_within]
    refine ⟨⟨declared_analyzeList body hBody _, ?_⟩, ?_⟩
    · exact Outcome.snd_node_andThen (p := fun part => AllDeclared (resolutionsOfPart part))
        hHandler (declared_analyzePart handler hHandler)
    · exact Outcome.snd_node_andThen (p := fun part => AllDeclared (resolutionsOfPart part))
        hFinalizer (declared_analyzePart finalizer hFinalizer)

theorem declared_analyzeList : (body : List Stmt) → AllDeclared (resolutionsOfList body) →
    (ctx : Context) → AllDeclared (resolutionsOfList (analyzeList body ctx).node)
  | [], h, ctx => h
  | s :: rest, h, ctx => by
    obtain ⟨hFirst, hRest⟩ := allDeclared_append.mp h
    rw [analyzeList, Outcome.node_map, resolutionsOfList, allDeclared_append,
      Outcome.fst_node_andThen]
    refine ⟨declared_analyze s hFirst ctx, ?_⟩
    exact Outcome.snd_node_andThen (p := fun rest => AllDeclared (resolutionsOfList rest)) hRest
      (declared_analyzeList rest hRest)

theorem declared_analyzePart : (part : Option (List Stmt)) → AllDeclared (resolutionsOfPart part) →
    (ctx : Context) → AllDeclared (resolutionsOfPart (analyzePart part ctx).node)
  | none, h, ctx => h
  | some body, h, ctx => by
    rw [analyzePart]
    exact declared_analyzeList body h _

end

/-- No analysis makes an invocation mean a constructor that is not declared. -/
theorem declared_reanalyzed {s : Stmt} (h : AllDeclared s.resolutions) (history : List Context) :
    AllDeclared (s.reanalyzed history).resolutions := by
  induction history generalizing s with
  | nil => exact h
  | cons ctx rest ih => exact ih (declared_analyze s h ctx)

end Stmt

/-! ## What comes of the analysis of an invocation -/

namespace Simple

variable {target : QualifiedName} {args before after : List Expr} {e : Expr} {ctx : Context}
  {cls : ClassDef}

/-- If there is no class of the name, that is all that is found. -/
theorem analyzeConstruct_of_cls?_eq_none (missing : target.cls? ctx = none) (args : List Expr)
    (known : Option Resolution) : ∃ problem, analyzeConstruct target args known ctx
      = (construct target args known, ctx.report problem target.token) := by
  cases found : target.resolve ctx with
  | error problem => exact ⟨problem, by rw [analyzeConstruct, found]⟩
  | ok cls =>
    rw [QualifiedName.resolve_eq_ok_iff, missing] at found
    cases found

/-- If the analysis stops at an argument, that is the end of it. -/
theorem analyzeConstruct_of_stopsAt (found : target.cls? ctx = some cls)
    (stops : Expr.StopsAt args ctx before e after) (known : Option Resolution) :
    let stopped := e.analyze (Expr.analyzeEach before ctx)
    analyzeConstruct target args known ctx
      = (construct target
          ((Expr.checkEach before ctx).map (·.expr) ++ stopped.expr :: after) known,
        stopped.ctx) := by
  simp only [analyzeConstruct, QualifiedName.resolve_eq_ok_iff.mpr found,
    Expr.analyzeArgs_of_stopsAt stops]

/-- If the types of all arguments are learnt, what is left to be found is a constructor. -/
theorem analyzeConstruct_of_learnt {tys : List Ty} (found : target.cls? ctx = some cls)
    (typed : (Expr.checkEach args ctx).map Expr.Checked.learnt? = tys.map some)
    (known : Option Resolution) :
    let behind := Expr.analyzeEach args ctx
    (analyzeConstruct target args known ctx).2 =
      match cls.resolveConstructor tys with
      | .ok _ => behind
      | .error error => behind.report (.overload error) target.token := by
  simp only [analyzeConstruct, QualifiedName.resolve_eq_ok_iff.mpr found,
    Expr.analyzeArgs_of_learnt typed]
  cases cls.resolveConstructor tys <;> rfl

/-- Nothing is reported of an invocation that means something. -/
theorem diagnostics_analyzeConstruct_of_means {r : Resolution} (h : target.Means args ctx r)
    (known : Option Resolution) :
    (analyzeConstruct target args known ctx).2.diagnostics = ctx.diagnostics := by
  obtain ⟨cls, tys, found, typed, chosen⟩ := QualifiedName.means_iff.mp h
  rw [analyzeConstruct_of_learnt found typed, chosen]
  exact Expr.diagnostics_analyzeEach (Expr.learnt_of_map_eq typed)

/-- Nothing is reported of an argument without a type. -/
theorem diagnostics_analyzeConstruct_of_lacksType (h : target.LacksType args ctx)
    (known : Option Resolution) :
    (analyzeConstruct target args known ctx).2.diagnostics = ctx.diagnostics := by
  obtain ⟨⟨cls, found⟩, before, e, after, stops, ok⟩ := h
  rw [analyzeConstruct_of_stopsAt found stops]
  exact (e.diagnostics_of_ok _ ok).trans (Expr.diagnostics_analyzeEach stops.typed)

/-- One problem is reported of any other invocation. -/
theorem exists_diagnostic_analyzeConstruct (meaningless : ∀ r, ¬ target.Means args ctx r)
    (typed : ¬ target.LacksType args ctx) (known : Option Resolution) :
    ∃ d, (analyzeConstruct target args known ctx).2.diagnostics = ctx.diagnostics ++ [d] := by
  cases found : target.cls? ctx with
  | none =>
    obtain ⟨problem, missing⟩ := analyzeConstruct_of_cls?_eq_none found args known
    exact ⟨⟨problem, target.token⟩, by rw [missing]; rfl⟩
  | some cls =>
    rcases Expr.learnt_or_stopsAt args ctx with ⟨tys, learnt⟩ | ⟨before, e, after, stops⟩
    · have silent := Expr.diagnostics_analyzeEach (Expr.learnt_of_map_eq learnt)
      cases chosen : cls.resolveConstructor tys with
      | ok r =>
        exact absurd (QualifiedName.means_iff.mpr ⟨cls, tys, found, learnt, chosen⟩) (meaningless r)
      | error error =>
        refine ⟨⟨.overload error, target.token⟩, ?_⟩
        rw [analyzeConstruct_of_learnt found learnt, chosen, ← silent]
        rfl
    · cases ok : (e.analyze (Expr.analyzeEach before ctx)).ok with
      | true => exact absurd ⟨⟨cls, found⟩, before, e, after, stops, ok⟩ typed
      | false =>
        rw [analyzeConstruct_of_stopsAt found stops, ← Expr.diagnostics_analyzeEach stops.typed]
        exact e.exists_diagnostic_of_not_ok _ ok

/-- **Invocations of constructors.**  The analysis of a new invocation always comes to its end.  The
invocation means something, which has then been found and of which nothing is reported; or it means
nothing, then nothing has been found, and one problem is reported, or none if a type is lacking.
Without a class no argument is analyzed, and none is behind the first that is wrong or of unknown
type.  After any analyses of a statement its invocations mean declared constructors. -/
theorem invocation_resolved (target : QualifiedName) (args : List Expr) (ctx : Context) :
    let outcome := (construct target args none).analyze ctx
    outcome.fault = none ∧
    (∀ r, outcome.node.resolutions = [some r] ↔ target.Means args ctx r) ∧
    ((∃ r, target.Means args ctx r ∧ outcome.node.resolutions = [some r] ∧
        outcome.ctx.diagnostics = ctx.diagnostics) ∨
      (∀ r, ¬ target.Means args ctx r) ∧ outcome.node.resolutions = [none] ∧
        (target.LacksType args ctx ∧ outcome.ctx.diagnostics = ctx.diagnostics ∨
          ¬ target.LacksType args ctx ∧
            ∃ d, outcome.ctx.diagnostics = ctx.diagnostics ++ [d])) ∧
    (target.cls? ctx = none → ∃ problem,
      outcome = .done (construct target args none) (ctx.report problem target.token)) ∧
    (∀ cls before e after, target.cls? ctx = some cls → Expr.StopsAt args ctx before e after →
      let stopped := e.analyze (Expr.analyzeEach before ctx)
      outcome = .done (construct target
        ((Expr.checkEach before ctx).map (·.expr) ++ stopped.expr :: after) none) stopped.ctx) ∧
    ∀ s : Stmt, (∀ r ∈ s.resolutions, r = none) → ∀ history : List Context,
      Resolution.AllDeclared (s.reanalyzed history).resolutions := by
  intro outcome
  have found : outcome.node.resolutions = [target.construction? args ctx] := by
    obtain ⟨args', node⟩ := analyze_construct target args none ctx
    rw [node, Option.or_none, resolutions]
  have means (r : Resolution) :
      outcome.node.resolutions = [some r] ↔ target.Means args ctx r := by
    rw [found, List.singleton_inj, QualifiedName.construction?_eq_some_iff]
  refine ⟨rfl, means, ?_, fun missing => ?_, fun cls before e after isCls stops => ?_,
    fun s new history => ?_⟩
  · by_cases meaning : ∃ r, target.Means args ctx r
    · obtain ⟨r, h⟩ := meaning
      exact .inl ⟨r, h, (means r).mpr h, diagnostics_analyzeConstruct_of_means h none⟩
    · have meaningless : ∀ r, ¬ target.Means args ctx r := not_exists.mp meaning
      have nothing : target.construction? args ctx = none :=
        Option.eq_none_iff_forall_ne_some.mpr fun r isSome =>
          meaningless r (QualifiedName.construction?_eq_some_iff.mp isSome)
      refine .inr ⟨meaningless, by rw [found, nothing], ?_⟩
      by_cases lacks : target.LacksType args ctx
      · exact .inl ⟨lacks, diagnostics_analyzeConstruct_of_lacksType lacks none⟩
      · exact .inr ⟨lacks, exists_diagnostic_analyzeConstruct meaningless lacks none⟩
  · obtain ⟨problem, step⟩ := analyzeConstruct_of_cls?_eq_none missing args none
    exact ⟨problem, by simp only [outcome, analyze, step]⟩
  · simp only [outcome, analyze, analyzeConstruct_of_stopsAt isCls stops]
  · refine Stmt.declared_reanalyzed (fun r isSome => ?_) history
    cases new _ isSome

/-- The second argument reads as a number what the first assigns, and so the superclass is
constructed from two numbers.  With an argument of unknown type behind the first, nothing is found
out about the invocation and the last argument, which is undeclared, is not looked at.  Without a
class of the name not even the first argument is.  A class without constructors that is found through
the alias of its import is constructed without arguments, and only so. -/
theorem invocation_resolved_of_super :
    let taking (ty : Ty) : Signature := ⟨[ty, ty], .void⟩
    let parent : ClassDef := .root "A" [⟨"constructor", .function [taking .string, taking .number]⟩]
    let plain : ClassDef := .root "C" []
    let ctx := Context.start ⟨default, .void, .derived "B" [] parent⟩ ⟨[("x", .unset)]⟩
      (Registry.empty.registerImported "lib" plain)
    let target : QualifiedName := ⟨.synthetic "super", none⟩
    let missing : QualifiedName := ⟨.synthetic "A", none⟩
    let imported : QualifiedName := ⟨.synthetic "C", some (.synthetic "lib")⟩
    let one : Expr := .value (.synthetic "1") (.typed .int) none
    let assigned : Expr := .assign (.synthetic "x") one none
    let untyped : Expr := .value (.synthetic "?") .untyped none
    let read (name : String) : Expr := .read (.synthetic name) .number none
    let picked : Resolution := ⟨parent, some (taking .number)⟩
    let stopped := (construct target [assigned, untyped, read "y"] none).analyze ctx
    let invocation : Stmt := .simple (construct target [assigned, read "x"] none)
    target.Means [assigned, read "x"] ctx picked ∧
      ((construct target [assigned, read "x"] none).analyze ctx).node.resolutions = [some picked] ∧
      target.cls? ctx = some parent ∧
      Expr.StopsAt [assigned, untyped, read "y"] ctx [assigned] untyped [read "y"] ∧
      stopped.ctx = (assigned.analyze ctx).ctx ∧
      target.LacksType [assigned, untyped, read "y"] ctx ∧
      missing.cls? ctx = none ∧
      (∃ problem, (construct missing [assigned] none).analyze ctx
        = .done (construct missing [assigned] none) (ctx.report problem missing.token)) ∧
      imported.cls? ctx = some plain ∧ imported.Means [] ctx ⟨plain, none⟩ ∧
      ((construct imported [] none).analyze ctx).node.resolutions = [some ⟨plain, none⟩] ∧
      (∀ r, ¬ imported.Means [one] ctx r) ∧
      (∀ r ∈ invocation.resolutions, r = none) ∧
      Resolution.AllDeclared
        (invocation.reanalyzed [ctx, .start default .empty .empty]).resolutions := by
  intro taking parent plain ctx target missing imported one assigned untyped read picked stopped
    invocation
  obtain ⟨-, means, -, -, -, declared⟩ := invocation_resolved target [assigned, read "x"] ctx
  obtain ⟨-, -, -, -, stops, -⟩ := invocation_resolved target [assigned, untyped, read "y"] ctx
  obtain ⟨-, -, -, noClass, -, -⟩ := invocation_resolved missing [assigned] ctx
  obtain ⟨-, meansBare, -, -, -, -⟩ := invocation_resolved imported [] ctx
  obtain ⟨-, meansOne, -, -, -, -⟩ := invocation_resolved imported [one] ctx
  have isCls : target.cls? ctx = some parent := rfl
  have learnt : (assigned.analyze ctx).learnt? = some .int := by decide +kernel
  have typed : ∀ checked ∈ Expr.checkEach [assigned] ctx, checked.learnt? ≠ none :=
    List.forall_mem_singleton.mpr (learnt ▸ Option.some_ne_none _)
  have stopsAt : Expr.StopsAt [assigned, untyped, read "y"] ctx [assigned] untyped [read "y"] :=
    ⟨rfl, typed, rfl⟩
  have found : ((construct target [assigned, read "x"] none).analyze ctx).node.resolutions
      = [some picked] := by decide +kernel
  have new : ∀ r ∈ invocation.resolutions, r = none := by decide +kernel
  have isMissing : missing.cls? ctx = none := by decide +kernel
  have isImported : imported.cls? ctx = some plain := by decide +kernel
  have implicit : imported.Means [] ctx ⟨plain, none⟩ := by
    refine .implicit plain isImported (fun overloads => ?_) rfl
    simp [plain, ClassDef.Declares, ClassDef.members]
  have foundNothing : ((construct imported [one] none).analyze ctx).node.resolutions = [none] := by
    decide +kernel
  refine ⟨(means picked).mp found, found, isCls, stopsAt, ?_, ?_, isMissing, noClass isMissing,
    isImported, implicit, (meansBare _).mpr implicit, fun r meansSomething => ?_, new,
    declared invocation new _⟩
  · simp only [stopped, stops parent [assigned] untyped [read "y"] isCls stopsAt]
    rfl
  · exact ⟨⟨parent, isCls⟩, [assigned], untyped, [read "y"], stopsAt, rfl⟩
  · have isSome := (meansOne r).mpr meansSomething
    rw [foundNothing] at isSome
    cases isSome

end Simple

end BodyCheck
