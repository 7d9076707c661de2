import BodyCheck.Block.Owner
import BodyCheck.Class.Basic
import BodyCheck.Expr.Basic

/-!
# Statements

The statements of a function body.

## Main definitions

* `QualifiedName` — the name of a class, possibly of an import.
* `Resolution` — the class and the constructor that a constructor invocation was found to mean.
* `Simple` — a statement without statements inside it.
* `Header` — what stands before the body of a loop or switch.
* `Stmt` — a statement.
* `Stmt.token` — where a statement is shown to be.
* `Stmt.resolutions` — what the constructor invocations in a statement were found to mean.

## Design notes

Statements that have statements inside them are few and are told apart by how many lists they
have and who owns them; all that is peculiar to a simple statement or to the header of a loop
stays in a type of its own.  A part of a try statement that is absent is not the same as one
without statements.
-/

namespace BodyCheck

/-- The name of a class, with the alias of the import it belongs to. -/
structure QualifiedName where
  token : Token
  importAlias : Option Token
deriving DecidableEq, Repr, Inhabited

namespace QualifiedName

/-- Whether this is the word `super` by itself, which stands for the superclass. -/
def isBareSuper (name : QualifiedName) : Bool :=
  name.importAlias.isNone && name.token.value == "super"

/-- The alias of the import, as text. -/
def aliasName? (name : QualifiedName) : Option String :=
  name.importAlias.map (·.value)

/-- The structural form of the name. -/
def form (name : QualifiedName) : Form :=
  .list [.text "QualifiedName", name.token.form, .optional (name.importAlias.map Token.form)]

end QualifiedName

/-- What a constructor invocation was found to mean: a class, and the constructor that its
arguments pick if the class declares any. -/
structure Resolution where
  cls : ClassDef
  signature : Option Signature
deriving DecidableEq, Repr, Inhabited

/-- A statement without statements inside it. -/
inductive Simple
  /-- The invocation of the constructor of a superclass. -/
  | construct (target : QualifiedName) (args : List Expr) (resolution : Option Resolution)
  | expression (e : Expr)
  | ret (keyword : Token) (e : Expr)
  | delete (keyword : Token) (e : Expr)
  | jump (kind : JumpKind) (keyword : Token) (label : Option Token)
  /-- The head of a section of a switch. -/
  | caseLabel (keyword : Token) (e : Expr)
  /-- The head of the section of a switch for all other cases. -/
  | defaultLabel (keyword : Token)
  | assert (keyword : Token) (exprs : List Expr)
  | log (keyword : Token) (exprs : List Expr)
deriving DecidableEq, Repr, Inhabited

namespace Simple

/-- Where the statement is shown to be: at its keyword, or at its class name or expression if
it begins with that.  A return is shown at what it returns. -/
def token : Simple → Token
  | construct target _ _ => target.token
  | expression e | ret _ e => e.token
  | delete keyword _ | jump _ keyword _ | caseLabel keyword _ | defaultLabel keyword
  | assert keyword _ | log keyword _ => keyword

/-- The name of the kind of statement. -/
def name : Simple → String
  | construct .. => "ConstructorInvocationStatement"
  | expression _ => "ExpressionStatement"
  | ret .. => "ReturnStatement"
  | delete .. => "DeleteStatement"
  | jump .breaks _ _ => "BreakStatement"
  | jump .continues _ _ => "ContinueStatement"
  | caseLabel .. => "CaseStatement"
  | defaultLabel _ => "DefaultStatement"
  | assert .. => "AssertStatement"
  | log .. => "LogStatement"

/-- What the statement was found to mean, if it is a constructor invocation. -/
def resolutions : Simple → List (Option Resolution)
  | construct _ _ resolution => [resolution]
  | _ => []

end Simple

/-- What stands before the body of a loop or switch, or behind it in a do-while loop. -/
inductive Header
  | doWhile (cond : Expr)
  | forIn (loopVariable : Token) (operand : Expr)
  | forLoop (start cond step : Option Expr)
  | whileLoop (cond : Expr)
  | switch (subject : Expr)
deriving DecidableEq, Repr, Inhabited

/-- The name of the kind of statement that the header belongs to. -/
def Header.name : Header → String
  | doWhile _ => "DoWhileStatement"
  | forIn .. => "ForInStatement"
  | forLoop .. => "ForStatement"
  | whileLoop _ => "WhileStatement"
  | switch _ => "SwitchStatement"

/-- A statement. -/
inductive Stmt
  | simple (s : Simple)
  /-- A loop or a switch. -/
  | breakable (keyword : Token) (label : Option Token) (header : Header) (body : List Stmt)
  | ifElse (keyword : Token) (cond : Expr) (onTrue onFalse : List Stmt)
  | guarded (keyword : Token) (body : List Stmt) (caught : Option Token)
      (handler finalizer : Option (List Stmt))
deriving Repr, Inhabited

namespace Stmt

/-- Where the statement is shown to be. -/
def token : Stmt → Token
  | simple s => s.token
  | breakable keyword _ _ _ | ifElse keyword _ _ _ | guarded keyword _ _ _ _ => keyword

/-- The name of the kind of statement. -/
def name : Stmt → String
  | simple s => s.name
  | breakable _ _ header _ => header.name
  | ifElse .. => "IfStatement"
  | guarded .. => "TryStatement"

mutual

/-- What the constructor invocations in a statement were found to mean, in the order in which
they are written. -/
def resolutions : Stmt → List (Option Resolution)
  | simple s => s.resolutions
  | breakable _ _ _ body => resolutionsOfList body
  | ifElse _ _ onTrue onFalse => resolutionsOfList onTrue ++ resolutionsOfList onFalse
  | guarded _ body _ handler finalizer =>
    resolutionsOfList body ++ resolutionsOfPart handler ++ resolutionsOfPart finalizer

/-- What the constructor invocations in a list were found to mean. -/
def resolutionsOfList : List Stmt → List (Option Resolution)
  | [] => []
  | s :: rest => s.resolutions ++ resolutionsOfList rest

/-- What the constructor invocations in a list that may be absent were found to mean. -/
def resolutionsOfPart : Option (List Stmt) → List (Option Resolution)
  | none => []
  | some body => resolutionsOfList body

end

end Stmt

end BodyCheck
