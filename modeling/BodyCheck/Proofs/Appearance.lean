import BodyCheck.Proofs.Accounting
import BodyCheck.Proofs.Reanalysis

/-!
# What can be seen of a tree

An analysis fills in types and constructors, at every level of a tree and as far as it comes.  None
of this can be seen: at every node the name, the token and the form are what they were.  So the tree
that is shown behind an analysis is the one that was there before.

## Main definitions

* `Expr.Look`, `Stmt.Look` — what can be seen of an expression and of a statement.
* `Event.treeShown?` — the tree that an event shows, as it is written.

## Main statements

* `Stmt.stmtAt?_asBuiltList` — what is built at a site does not depend on what has been found.
* `Analyzer.treesShown_analyzeAllInto` — the trees that a run over bodies shows.
* `Stmt.appearance_kept` — nothing that can be seen is changed by an analysis.

## Design notes

What an analysis keeps is said once, by `asBuilt`; all that is left to show is that what can be seen
of a node can be seen of it as it was built.
-/

namespace BodyCheck

/-! ## What can be seen of a node -/

namespace Expr

/-- What can be seen of an expression. -/
structure Look where
  token : Token
  form : Form

/-- What can be seen of the expression. -/
def look (e : Expr) : Look :=
  ⟨e.token, e.form⟩

/-- What an expression looks like is not what is known of its type. -/
@[simp] theorem look_asBuilt (e : Expr) : e.asBuilt.look = e.look := by
  rw [look, token_asBuilt, form_asBuilt, look]

/-- The parts of an expression as built are its parts, each as built. -/
theorem parts_asBuilt (e : Expr) : e.asBuilt.parts = e.parts.map asBuilt := by
  induction e with
  | value | read => rfl
  | assign token source known ih => rw [asBuilt, parts, ih, parts, List.map_cons, asBuilt]
  | index token base key known ihBase ihKey =>
    rw [asBuilt, parts, ihBase, ihKey, parts, List.map_cons, List.map_append, asBuilt]

end Expr

/-- The expressions of a simple statement as built are its expressions, each as built. -/
theorem Simple.exprs_asBuilt (s : Simple) : s.asBuilt.exprs = s.exprs.map Expr.asBuilt := by
  cases s <;> rfl

theorem Header.exprs_asBuilt (header : Header) :
    header.asBuilt.exprs = header.exprs.map Expr.asBuilt := by
  cases header with
  | forLoop start cond step => cases start <;> cases cond <;> cases step <;> rfl
  | _ => rfl

namespace Stmt

/-- What can be seen of a statement. -/
structure Look where
  name : String
  token : Token
  form : Form
  /-- What can be seen of its expressions and of the expressions inside them. -/
  exprs : List Expr.Look

/-- What can be seen of the statement. -/
def look (s : Stmt) : Look :=
  ⟨s.name, s.token, s.form, (s.exprs.flatMap Expr.parts).map Expr.look⟩

theorem exprs_asBuilt (s : Stmt) : s.asBuilt.exprs = s.exprs.map Expr.asBuilt := by
  cases s with
  | simple s => exact s.exprs_asBuilt
  | breakable keyword label header body => exact header.exprs_asBuilt
  | ifElse | guarded => rfl

/-- A statement looks as it was built. -/
@[simp] theorem look_asBuilt (s : Stmt) : s.asBuilt.look = s.look := by
  have parts : (s.asBuilt.exprs.flatMap Expr.parts).map Expr.look
      = (s.exprs.flatMap Expr.parts).map Expr.look := by
    rw [exprs_asBuilt, List.flatMap_map, List.map_flatMap, List.map_flatMap]
    simp only [Expr.parts_asBuilt, List.map_map, Function.comp_def, Expr.look_asBuilt]
  rw [look, name_asBuilt, token_asBuilt, form_asBuilt, parts, look]

/-! ## What can be seen at a site -/

/-- A part that is absent stays absent, and one that is there is taken back to how it was built. -/
theorem asBuiltPart_eq_map (part : Option (List Stmt)) : asBuiltPart part = part.map asBuiltList := by
  cases part <;> rfl

/-- The lists inside a statement as built are its lists, each as built. -/
theorem slot?_asBuilt (s : Stmt) (slot : Slot) :
    s.asBuilt.slot? slot = (s.slot? slot).map asBuiltList := by
  cases s with
  | simple s => rfl
  | breakable keyword label header body | ifElse keyword cond onTrue onFalse => cases slot <;> rfl
  | guarded keyword body caught handler finalizer =>
    cases slot with
    | handler => exact asBuiltPart_eq_map handler
    | finalizer => exact asBuiltPart_eq_map finalizer
    | body | onTrue | onFalse => rfl

/-- The statement at an index of a list as built is the one at this index, as built. -/
theorem getElem?_asBuiltList (body : List Stmt) (i : Nat) :
    (asBuiltList body)[i]? = body[i]?.map asBuilt := by
  rw [asBuiltList_eq_map, List.getElem?_map]

theorem listAt?_asBuiltList (place : Place) (body : List Stmt) :
    listAt? place (asBuiltList body) = (listAt? place body).map asBuiltList := by
  induction place generalizing body with
  | nil => rfl
  | cons step rest ih =>
    obtain ⟨i, slot⟩ := step
    rw [listAt?, listAt?, getElem?_asBuiltList]
    cases body[i]? with
    | none => rfl
    | some s =>
      rw [Option.map_some, Option.bind_some, Option.bind_some, slot?_asBuilt]
      cases s.slot? slot with
      | none => rfl
      | some inner => exact ih inner

/-- What is built at a site is what is there, as it was built. -/
theorem stmtAt?_asBuiltList (site : Site) (body : List Stmt) :
    stmtAt? site (asBuiltList body) = (stmtAt? site body).map asBuilt := by
  rw [stmtAt?, stmtAt?, listAt?_asBuiltList]
  cases listAt? site.place body with
  | none => rfl
  | some inner => exact getElem?_asBuiltList inner site.index

/-- At every site of two bodies that are the same as built, the same can be seen. -/
theorem look_congr {body body' : List Stmt} (h : asBuiltList body = asBuiltList body')
    (site : Site) : (stmtAt? site body).map look = (stmtAt? site body').map look := by
  have asSeen (body : List Stmt) :
      (stmtAt? site body).map look = (stmtAt? site (asBuiltList body)).map look := by
    rw [stmtAt?_asBuiltList, Option.map_map]
    exact congrArg (fun f => (stmtAt? site body).map f) (funext fun s => s.look_asBuilt.symm)
  rw [asSeen, h, ← asSeen]

/-- The shown tree of a body depends on nothing but how the body was built. -/
theorem formOfList_congr {body body' : List Stmt} (h : asBuiltList body = asBuiltList body') :
    formOfList body = formOfList body' := by
  rw [formOfList, ← formsOfList_asBuiltList, h, formsOfList_asBuiltList, formOfList]

end Stmt

/-! ## The trees that are shown -/

/-- The function whose tree an event shows, and the tree as it is written. -/
def Event.treeShown? : Event → Option (String × String)
  | bodyShown functionName tree => some (functionName, tree.write)
  | _ => none

namespace FunctionBody

/-- What is shown of the body: the name of the function, and its statements as they are written. -/
def shown (body : FunctionBody) : String × String :=
  (body.function.name, (Stmt.formOfList body.statements).write)

/-- The analysis of a body itself shows no tree. -/
theorem treesShown_analyze (body : FunctionBody) (classes : Registry) :
    (body.analyze classes).ctx.events.filterMap Event.treeShown? = [] := by
  rw [List.filterMap_eq_nil_iff]
  intro event mem
  rcases body.isPassage_or_label_of_mem_events classes mem with passage | ⟨label, found, rfl⟩
  · cases event with
    | bodyShown => cases passage
    | _ => rfl
  · rfl

end FunctionBody

namespace Analyzer

variable (analyzer : Analyzer)

/-- No tree is shown before an analysis. -/
theorem treesShown_eventsBefore (body : FunctionBody) :
    (analyzer.eventsBefore body).filterMap Event.treeShown? = [] := by
  rw [eventsBefore]
  split <;> rfl

/-- Of a body whose analysis comes to its end, its tree is shown as it was. -/
theorem treesShown_told (body : FunctionBody) :
    (analyzer.told body).filterMap Event.treeShown?
      = if analyzer.settings.showTrees then [body.shown] else [] := by
  have kept : Stmt.formOfList (body.analyze analyzer.classes).node
      = Stmt.formOfList body.statements :=
    Stmt.formOfList_congr (Stmt.asBuiltList_analyzeList ..)
  rw [told, List.filterMap_append, List.filterMap_append, treesShown_eventsBefore,
    body.treesShown_analyze, List.nil_append, List.nil_append, eventsAfter, kept,
    List.filterMap_append]
  cases analyzer.settings.showTrees <;> cases analyzer.settings.verbose <;> rfl

/-- The trees of the bodies in front of the first fault are shown, in order. -/
theorem treesShown_analyzeAllInto (report : Report) (bodies : List FunctionBody) :
    (analyzer.analyzeAllInto report bodies).events.filterMap Event.treeShown?
      = if analyzer.settings.showTrees then
          (bodies.takeWhile fun body => (body.fault? analyzer.classes).isNone).map (·.shown)
        else [] := by
  induction bodies generalizing report with
  | nil => cases analyzer.settings.showTrees <;> rfl
  | cons body rest ih =>
    rw [analyzeAllInto]
    cases isFault : body.fault? analyzer.classes with
    | some fault =>
      rw [analyzer.analyzeInto_of_fault report isFault, List.takeWhile_cons, isFault]
      dsimp only
      rw [List.filterMap_append, treesShown_eventsBefore, body.treesShown_analyze]
      cases analyzer.settings.showTrees <;> rfl
    | none =>
      rw [analyzer.analyzeInto_of_end report isFault, List.takeWhile_cons, isFault]
      dsimp only
      rw [List.filterMap_append, treesShown_told, ih]
      cases analyzer.settings.showTrees <;> rfl

end Analyzer

/-- **Appearance.**  An analysis, however it ends, changes neither the form of a tree nor, at any
site of the tree, the name, the token and the form of the statement there and the tokens and forms
of its expressions.  The trees that are shown in the course of a run over bodies are those of the
bodies in front of the first fault, written as they were before the run. -/
theorem Stmt.appearance_kept :
    (∀ (s : Stmt) (ctx : Context),
      let after := (s.analyze ctx).node
      after.look = s.look ∧
        ∀ site, (stmtAt? site [after]).map look = (stmtAt? site [s]).map look) ∧
    (∀ (body : List Stmt) (ctx : Context),
      let after := (analyzeList body ctx).node
      formOfList after = formOfList body ∧
        ∀ site, (stmtAt? site after).map look = (stmtAt? site body).map look) ∧
    ∀ (analyzer : Analyzer) (bodies : List FunctionBody),
      let run := analyzer.analyzeUnit bodies
      run.bodies.map (·.shown) = bodies.map (·.shown) ∧
        run.events.filterMap Event.treeShown?
          = if analyzer.settings.showTrees then
              (bodies.takeWhile fun body => (body.fault? analyzer.classes).isNone).map (·.shown)
            else [] := by
  refine ⟨fun s ctx => ?_, fun body ctx => ?_, fun analyzer bodies => ?_⟩
  · have kept := s.asBuilt_analyze ctx
    have keptAlone : asBuiltList [(s.analyze ctx).node] = asBuiltList [s] := by
      simp only [asBuiltList_eq_map, List.map_cons, List.map_nil, kept]
    exact ⟨by rw [← look_asBuilt, kept, look_asBuilt], look_congr keptAlone⟩
  · have kept := asBuiltList_analyzeList body ctx
    exact ⟨formOfList_congr kept, look_congr kept⟩
  · have shown_asBuilt (body : FunctionBody) : body.asBuilt.shown = body.shown := by
      rw [FunctionBody.shown, FunctionBody.asBuilt, formOfList_congr (asBuiltList_asBuiltList _)]
      rfl
    have kept := congrArg (List.map FunctionBody.shown)
      (analyzer.map_asBuilt_analyzeAllInto .empty bodies)
    rw [List.map_map, List.map_map, Function.comp_def, funext shown_asBuilt] at kept
    exact ⟨kept, analyzer.treesShown_analyzeAllInto .empty bodies⟩

end BodyCheck
