import BodyCheck.Proofs.Coupling
import BodyCheck.Proofs.Rules
import BodyCheck.Proofs.Subtyping

/-!
# What a body mentions

An analysis looks up the classes that its constructor invocations name, the class of the function if
one of them is a bare `super`, and the return type if something is returned.  Nothing else outside of
the block stack can make a difference to it; and the return type makes a difference to nothing but
the diagnostics about it.

## Main definitions

* `Context.AgreeOn` — two contexts give the constructor invocations in a list the same classes.
* `Diagnostic.shown` — what there is to see of a diagnostic.
* `Context.SeemSame` — contexts whose diagnostics are the same in a certain view.

## Main statements

* `Context.SeemSame.coupling` — contexts that seem the same do so while both runs do alike.
* `Stmt.analyzeList_seemSame` — a list does alike in contexts that seem the same.
* `Stmt.only_mentioned_matters` — what a body does not mention makes no difference.

## Design notes

What is claimed about the diagnostics depends on the return types: where these are equal the
diagnostics are equal, where they have the same name the diagnostics look the same, and where they
are arbitrary only those about them differ.  So the view is left open in the relation between the
two runs.  What it asks of the view is that the rule for returns gives the same in it on both sides.
-/

namespace BodyCheck

/-! ## Contexts that agree -/

/-- The contexts give the constructor invocations among the statements the same classes: a bare
`super` is looked up in the class of the function and every other name among the visible classes. -/
structure Context.AgreeOn (statements : List Stmt) (a b : Context) : Prop where
  classes : ∀ target args known, .simple (.construct target args known) ∈ statements →
    target.isBareSuper = false →
      a.classes.lookup target.aliasName? target.token.value
        = b.classes.lookup target.aliasName? target.token.value
  cls : ∀ target args known, .simple (.construct target args known) ∈ statements →
    target.isBareSuper = true → a.function.cls = b.function.cls

/-- A name has the same meaning in contexts that agree on its invocation. -/
theorem Context.AgreeOn.resolve_eq {statements : List Stmt} {a b : Context}
    (h : a.AgreeOn statements b) {target : QualifiedName} {args : List Expr}
    {known : Option Resolution} (mem : .simple (.construct target args known) ∈ statements) :
    target.resolve a = target.resolve b := by
  rw [QualifiedName.resolve, QualifiedName.resolve]
  split
  next bare => rw [h.cls target args known mem bare]
  next notBare => rw [h.classes target args known mem (Bool.eq_false_iff.mpr notBare)]

/-! ## Diagnostics in a view -/

namespace Diagnostic

/-- What there is to see of a diagnostic: the kind and the wording of the problem, and the token. -/
def shown (d : Diagnostic) : ProblemKind × String × Token :=
  (d.problem.kind, d.message, d.token)

/-- Whether the diagnostic is about something that does not convert to the return type. -/
def isAboutReturn (d : Diagnostic) : Bool :=
  match d.problem with
  | .returnMismatch _ _ => true
  | _ => false

end Diagnostic

variable {γ : Type} {view : Diagnostic → Option γ} {statements : List Stmt} {a b : Context}

/-- In the view, what is returned gives the same with the one return type as with the other. -/
def Ty.ReturnAlike (view : Diagnostic → Option γ) (declared declared' : Ty) : Prop :=
  ∀ actual keyword, (Rule.return? declared actual).bind (fun problem => view ⟨problem, keyword⟩)
    = (Rule.return? declared' actual).bind fun problem => view ⟨problem, keyword⟩

/-- Return types of the same name give problems that look the same. -/
theorem Ty.returnAlike_shown {declared declared' : Ty} (h : declared.same declared' = true) :
    ReturnAlike (fun d => some d.shown) declared declared' := by
  intro actual keyword
  cases actual with
  | none => rfl
  | some actual =>
    have sameMessage : (Problem.returnMismatch actual declared).message
        = (Problem.returnMismatch actual declared').message :=
      congrArg (fun name => "cannot convert '" ++ actual.text ++ "' to return type '" ++ name ++ "'")
        (text_eq_of_same h)
    rw [Rule.return?, Rule.return?, convertsTo_congr h]
    split
    · rfl
    · exact congrArg (fun message => some (ProblemKind.type, message, keyword)) sameMessage

/-- No return type gives anything to a view without the problems with it. -/
theorem Ty.returnAlike_of_hidden {view : Diagnostic → Option γ}
    (hidden : ∀ actual declared keyword, view ⟨.returnMismatch actual declared, keyword⟩ = none)
    (declared declared' : Ty) : ReturnAlike view declared declared' := by
  have nothing (declared : Ty) (actual : Option Ty) (keyword : Token) :
      (Rule.return? declared actual).bind (fun problem => view ⟨problem, keyword⟩) = none := by
    cases problem : Rule.return? declared actual with
    | none => rfl
    | some problem' =>
      obtain ⟨actual', -, -, rfl⟩ := Rule.mem_return?_iff.mp problem
      exact hidden actual' declared keyword
  intro actual keyword
  rw [nothing, nothing]

/-- What the view shows of the diagnostics of a context. -/
def Context.seen (view : Diagnostic → Option γ) (ctx : Context) : List γ :=
  ctx.diagnostics.filterMap view

/-- What is seen of a context grows by what is seen of the problem. -/
theorem Context.seen_reportAny (ctx : Context) (problem : Option Problem) (token : Token) :
    (ctx.reportAny problem token).seen view
      = ctx.seen view ++ (problem.bind fun problem => view ⟨problem, token⟩).toList := by
  rw [seen, diagnostics_reportAny, List.filterMap_append, ← seen]
  congr 1
  cases problem with
  | none => rfl
  | some problem => cases seen : view ⟨problem, token⟩ <;> simp [seen]

/-! ## Contexts that seem the same -/

/-- The contexts have the same stack and, in the view, the same diagnostics; they agree on the
constructor invocations among the statements and, in the view, on the returns among them. -/
structure Context.SeemSame (view : Diagnostic → Option γ) (statements : List Stmt)
    (a b : Context) : Prop where
  stack : a.stack = b.stack
  seen : a.seen view = b.seen view
  agreeOn : a.AgreeOn statements b
  returns : ∀ keyword e, .simple (.ret keyword e) ∈ statements →
    a.function.returns.ReturnAlike view b.function.returns

namespace Context.SeemSame

/-- A run that leaves the function and the classes as they are only has to keep the stack and what is
seen the same. -/
theorem carry {a' b' : Context} (h : a.SeemSame view statements b)
    (functions : a'.function = a.function ∧ b'.function = b.function)
    (classes : a'.classes = a.classes ∧ b'.classes = b.classes) (stack : a'.stack = b'.stack)
    (seen : a'.seen view = b'.seen view) : a'.SeemSame view statements b' := by
  refine ⟨stack, seen, ⟨?_, ?_⟩, ?_⟩
  · rw [classes.1, classes.2]
    exact h.agreeOn.classes
  · rw [functions.1, functions.2]
    exact h.agreeOn.cls
  · rw [functions.1, functions.2]
    exact h.returns

/-- Both runs may report different problems that give the same in the view. -/
theorem reportAny (h : a.SeemSame view statements b) {p q : Option Problem} {token : Token}
    (alike : (p.bind fun problem => view ⟨problem, token⟩)
      = q.bind fun problem => view ⟨problem, token⟩) :
    (a.reportAny p token).SeemSame view statements (b.reportAny q token) := by
  have reported (ctx : Context) (problem : Option Problem) :
      (ctx.reportAny problem token).function = ctx.function ∧
        (ctx.reportAny problem token).classes = ctx.classes ∧
        (ctx.reportAny problem token).stack = ctx.stack := by
    cases problem <;> exact ⟨rfl, rfl, rfl⟩
  obtain ⟨functionA, classesA, stackA⟩ := reported a p
  obtain ⟨functionB, classesB, stackB⟩ := reported b q
  refine h.carry ⟨functionA, functionB⟩ ⟨classesA, classesB⟩ ?_ ?_
  · rw [stackA, stackB, h.stack]
  · rw [seen_reportAny, seen_reportAny, h.seen, alike]

/-- Contexts that seem the same do so while both runs do alike. -/
theorem coupling : Coupling (SeemSame view statements) where
  locals h := congrArg BlockStack.locals h.stack
  setLocals h locals :=
    h.carry ⟨rfl, rfl⟩ ⟨rfl, rfl⟩ (congrArg (·.setLocals locals) h.stack) h.seen
  report h problem _ := h.reportAny (p := some problem) (q := some problem) rfl
  tell h _ _ := h.carry ⟨rfl, rfl⟩ ⟨rfl, rfl⟩ h.stack h.seen
  enter h owner := h.carry ⟨rfl, rfl⟩ ⟨rfl, rfl⟩ (congrArg (·.enter owner) h.stack) h.seen
  leave _ inside _ _ :=
    inside.carry ⟨rfl, rfl⟩ ⟨rfl, rfl⟩ (congrArg BlockStack.leave inside.stack) inside.seen

/-- All but returns see the same. -/
theorem seesSame (h : a.SeemSame view statements b) {s : Simple}
    (mem : .simple s ∈ statements) (noReturn : ∀ keyword e, s ≠ .ret keyword e) :
    s.SeesSame a b := by
  cases s with
  | construct target args known => exact h.agreeOn.resolve_eq mem
  | ret keyword e => exact absurd rfl (noReturn keyword e)
  | jump kind keyword label =>
    rw [Simple.SeesSame, h.stack]
    exact ⟨rfl, fun _ _ => rfl⟩
  | caseLabel keyword e => rw [Simple.SeesSame, h.stack]
  | _ => trivial

/-- A return does alike, up to what it reports. -/
theorem analyze_ret (h : a.SeemSame view statements b) {keyword : Token} {e : Expr}
    (mem : .simple (.ret keyword e) ∈ statements) :
    Outcome.Coupled (SeemSame view statements) ((Simple.ret keyword e).analyze a)
      ((Simple.ret keyword e).analyze b) := by
  obtain ⟨expr, ok, behind⟩ := e.analyze_coupled coupling h
  rw [Simple.analyze, Simple.analyze]
  refine .done ?_ (congrArg (Simple.ret keyword) expr)
  simp only [Simple.analyzeWith, expr, ok]
  split
  · exact behind.reportAny (h.returns keyword e mem _ keyword)
  · exact behind

/-- All simple statements do alike in contexts that seem the same. -/
theorem doAlike : Stmt.DoAlike (SeemSame view statements) statements := by
  intro s mem a b h _
  by_cases isReturn : ∃ keyword e, s = .ret keyword e
  · obtain ⟨keyword, e, rfl⟩ := isReturn
    exact h.analyze_ret mem
  · refine s.analyze_coupled coupling h (h.seesSame mem fun keyword e isRet => ?_)
    exact isReturn ⟨keyword, e, isRet⟩

end Context.SeemSame

namespace Stmt

/-- A list does alike in contexts that seem the same. -/
theorem analyzeList_seemSame {body : List Stmt}
    (h : a.SeemSame view (inOrderOfList body) b) :
    Outcome.Coupled (Context.SeemSame view (inOrderOfList body)) (analyzeList body a)
      (analyzeList body b) := by
  refine analyzeList_coupled Context.SeemSame.coupling body Context.SeemSame.doAlike a b h ?_
  intro _ _ _
  rw [Context.SameSubject, h.stack]

/-- The return types of the contexts are related, if something is returned in the list. -/
def ReturnsRelated (related : Ty → Ty → Prop) (body : List Stmt) (a b : Context) : Prop :=
  ∀ keyword e, simple (.ret keyword e) ∈ inOrderOfList body →
    related a.function.returns b.function.returns

/-- **Only what a body mentions can influence its analysis.**  In contexts with the same stack and
the same diagnostics that agree on the constructor invocations in a list, the list comes to the same
end, is filled in with the same, and leaves the same stack; and it adds the same diagnostics, apart
from those about the return type.  If something is returned in the list and the return types have the
same name, these look the same as well; and if the return types are equal, or nothing is returned, all
diagnostics are equal. -/
theorem only_mentioned_matters (body : List Stmt) (a b : Context) (sameStack : a.stack = b.stack)
    (sameDiagnostics : a.diagnostics = b.diagnostics) (agreeOn : a.AgreeOn (inOrderOfList body) b) :
    let inA := analyzeList body a
    let inB := analyzeList body b
    inA.fault = inB.fault ∧ inA.node = inB.node ∧ inA.ctx.stack = inB.ctx.stack ∧
    inA.ctx.diagnostics.filter (!·.isAboutReturn) = inB.ctx.diagnostics.filter (!·.isAboutReturn) ∧
    (ReturnsRelated (fun r r' => r.same r' = true) body a b →
      inA.ctx.diagnostics.map Diagnostic.shown = inB.ctx.diagnostics.map Diagnostic.shown) ∧
    (ReturnsRelated (· = ·) body a b → inA.ctx.diagnostics = inB.ctx.diagnostics) := by
  intro inA inB
  have alike {γ : Type} (view : Diagnostic → Option γ)
      (returns : ReturnsRelated (Ty.ReturnAlike view) body a b) :
      Outcome.Coupled (Context.SeemSame view (inOrderOfList body)) inA inB :=
    analyzeList_seemSame ⟨sameStack, congrArg (·.filterMap view) sameDiagnostics, agreeOn, returns⟩
  have others := alike (Option.guard (!·.isAboutReturn)) fun _ _ _ =>
    Ty.returnAlike_of_hidden (fun _ _ _ => rfl) _ _
  refine ⟨others.fault, others.node, others.ctx.stack, ?_, fun sameName => ?_, fun same => ?_⟩
  · have seen := others.ctx.seen
    simpa only [Context.seen, List.filterMap_eq_filter] using seen
  · have seen := (alike (fun d => some d.shown) fun keyword e mem =>
      Ty.returnAlike_shown (sameName keyword e mem)).ctx.seen
    simpa only [Context.seen, List.filterMap_eq_map'] using seen
  · have seen := (alike some fun keyword e mem actual _ =>
      same keyword e mem ▸ rfl).ctx.seen
    simpa only [Context.seen, List.filterMap_some] using seen

/-- Here the runs differ in the function, in what they have been told, and in the visible classes but
for `A` and the unknown `B`.  The return types of the first two have the same name, and so these
report the same; the third reports another return type, and is otherwise like the first. -/
theorem only_mentioned_matters_of_imports :
    let one : Expr := .value (.synthetic "1") (.typed .int) none
    let name (text : String) : QualifiedName := ⟨.synthetic text, none⟩
    let invocation (text : String) : Stmt := .simple (.construct (name text) [] none)
    let body : List Stmt :=
      [.simple (.expression (.assign (.synthetic "x") one none)),
        .ifElse (.synthetic "if") one [invocation "A", invocation "super"] [invocation "B"],
        .simple (.ret (.synthetic "return") one), .simple (.assert (.synthetic "assert") [])]
    let cls : ClassDef := .derived "C" [] (.root "P" [])
    let classes := Registry.empty.register (.root "A" [])
    let others := (Registry.empty.registerImported "m" cls).register (.root "A" [])
    let locals : Locals := ⟨[("x", .unset)]⟩
    let a := Context.start ⟨.synthetic "f", .object ⟨"T", []⟩, cls⟩ locals classes
    let b := (Context.start ⟨.synthetic "g", .object ⟨"T", ["S"]⟩, cls⟩ locals others).tell default
    let c := Context.start ⟨.synthetic "h", .string, cls⟩ locals others
    let inA := analyzeList body a
    let inB := analyzeList body b
    let inC := analyzeList body c
    a.stack = b.stack ∧ a.diagnostics = b.diagnostics ∧ a.AgreeOn (inOrderOfList body) b ∧
      inA.fault = some ⟨.emptyAssertion, .synthetic "assert"⟩ ∧ inA.fault = inB.fault ∧
      resolutionsOfList inA.node = [some ⟨.root "A" [], none⟩, some ⟨.root "P" [], none⟩, none] ∧
      inA.node = inB.node ∧ inA.ctx.stack = inB.ctx.stack ∧
      inA.ctx.diagnostics.map Diagnostic.shown = inB.ctx.diagnostics.map Diagnostic.shown ∧
      inA.ctx.diagnostics = [⟨.unknownClass "B" none, .synthetic "B"⟩,
        ⟨.returnMismatch .int (.object ⟨"T", []⟩), .synthetic "return"⟩] ∧
      inC.ctx.diagnostics.map Diagnostic.shown ≠ inA.ctx.diagnostics.map Diagnostic.shown ∧
      inA.node = inC.node ∧
      inA.ctx.diagnostics.filter (!·.isAboutReturn) = inC.ctx.diagnostics.filter (!·.isAboutReturn) := by
  intro one name invocation body cls classes others locals a b c inA inB inC
  have agreeOn (ctx : Context) (sameClass : ctx.function.cls = cls) (others' : ctx.classes = others) :
      a.AgreeOn (inOrderOfList body) ctx := by
    constructor
    · intro target args known mem _
      rw [others']
      simp [body, inOrderOfList, inOrder, invocation, name] at mem
      rcases mem with ⟨rfl, -⟩ | ⟨rfl, -⟩ | ⟨rfl, -⟩
      · decide +kernel
      · decide +kernel
      · decide +kernel
    · intro _ _ _ _ _
      exact sameClass.symm
  have agreeB := agreeOn b rfl rfl
  have agreeC := agreeOn c rfl rfl
  obtain ⟨fault, node, stack, -, shown, -⟩ := only_mentioned_matters body a b rfl rfl agreeB
  obtain ⟨-, nodeC, -, filtered, -, -⟩ := only_mentioned_matters body a c rfl rfl agreeC
  refine ⟨rfl, rfl, agreeB, by decide +kernel, fault, by decide +kernel, node, stack, ?_,
    by decide +kernel, by decide +kernel, nodeC, filtered⟩
  exact shown fun _ _ _ => rfl

end Stmt

end BodyCheck
