import BodyCheck.Stmt.Basic

/-!
# Structural forms of statements

A statement is written as a list that begins with the name of its kind.  The keyword is left
out, except that of a jump, and so is whatever analysis found.

## Main definitions

* `Stmt.form` — the structural form of a statement.
* `Stmt.formOfList` — that of a list, such as a whole body.
-/

namespace BodyCheck

/-- A token that may be absent. -/
def Token.formOptional (token : Option Token) : Form :=
  .optional (token.map Token.form)

namespace Expr

/-- An expression that may be absent. -/
def formOptional (e : Option Expr) : Form :=
  .optional (e.map form)

/-- Several expressions. -/
def formOfList (es : List Expr) : Form :=
  .list (es.map form)

end Expr

/-- The structural form of a simple statement. -/
def Simple.form (s : Simple) : Form :=
  .list (.text s.name ::
    match s with
    | .construct target args _ => [target.form, Expr.formOfList args]
    | .expression e | .ret _ e | .delete _ e | .caseLabel _ e => [e.form]
    | .jump _ keyword label => [keyword.form, Token.formOptional label]
    | .defaultLabel _ => []
    | .assert _ exprs | .log _ exprs => [Expr.formOfList exprs])

/-- The parts of a header in the form of its statement. -/
def Header.forms : Header → List Form
  | .doWhile e | .whileLoop e | .switch e => [e.form]
  | .forIn loopVariable operand => [loopVariable.form, operand.form]
  | .forLoop start cond step =>
    [Expr.formOptional start, Expr.formOptional cond, Expr.formOptional step]

namespace Stmt

mutual

/-- The structural form of a statement. -/
def form : Stmt → Form
  | simple s => s.form
  | breakable _ label header body =>
    .list (.text header.name :: Token.formOptional label ::
      header.forms ++ [.list (formsOfList body)])
  | ifElse _ cond onTrue onFalse =>
    .list [.text "IfStatement", cond.form, .list (formsOfList onTrue),
      .list (formsOfList onFalse)]
  | guarded _ body caught handler finalizer =>
    .list [.text "TryStatement", .list (formsOfList body), Token.formOptional caught,
      formOfPart handler, formOfPart finalizer]

/-- The structural forms of the statements of a list. -/
def formsOfList : List Stmt → List Form
  | [] => []
  | s :: rest => s.form :: formsOfList rest

/-- The structural form of a list that may be absent. -/
def formOfPart : Option (List Stmt) → Form
  | none => .null
  | some body => .list (formsOfList body)

end

/-- The structural form of a list of statements, such as a whole body. -/
def formOfList (body : List Stmt) : Form :=
  .list (formsOfList body)

/-- The form of a list has an item for each of its statements. -/
theorem formsOfList_eq_map (body : List Stmt) : formsOfList body = body.map form := by
  induction body with
  | nil => rfl
  | cons s rest ih => rw [formsOfList, ih, List.map_cons]

end Stmt

end BodyCheck
