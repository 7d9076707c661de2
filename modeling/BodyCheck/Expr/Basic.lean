import BodyCheck.Form
import BodyCheck.Ty.Basic

/-!
# Expressions

The expressions of a body, as far as checking statements depends on them: values whose types are
settled elsewhere, reads and assignments of locals, and access by key.

## Main definitions

* `Value` — a value with what is settled about its type.
* `Expr` — an expression.
* `Expr.ty?` — the type that analysis has found.
* `Expr.form` — the structural form.

## Design notes

Every node has room for the type that analysis finds.  The room stays with the tree, so that a
tree can be analyzed again; it is no part of the structural form.
-/

namespace BodyCheck

/-- What is settled about the type of a value before its statement is analyzed. -/
inductive Value
  | typed (ty : Ty)
  /-- The value is known to be wrong, and analysis has to say so. -/
  | failing (message : String)
  /-- The value is not wrong, but nothing is known about its type. -/
  | untyped
deriving DecidableEq, Repr, Inhabited

/-- The type that is settled, if one is. -/
def Value.declared? : Value → Option Ty
  | typed ty => some ty
  | failing _ | untyped => none

/-- An expression; `known` is the type that the latest successful analysis found. -/
inductive Expr
  | value (token : Token) (content : Value) (known : Option Ty)
  /-- The value of the local variable that the token names. -/
  | read (token : Token) (declared : Ty) (known : Option Ty)
  /-- An assignment to the local variable that the token names. -/
  | assign (token : Token) (source : Expr) (known : Option Ty)
  /-- The element of `base` under `key`. -/
  | index (token : Token) (base key : Expr) (known : Option Ty)
deriving DecidableEq, Repr, Inhabited

namespace Expr

/-- The token that shows where the expression is. -/
def token : Expr → Token
  | value token _ _ | read token _ _ | assign token _ _ | index token _ _ _ => token

/-- The type that analysis has found. -/
def ty? : Expr → Option Ty
  | value _ _ known | read _ _ known | assign _ _ known | index _ _ _ known => known

/-- The key of an access by key. -/
def key? : Expr → Option Expr
  | index _ _ key _ => some key
  | _ => none

/-- The structural form of an expression. -/
def form : Expr → Form
  | value token content _ =>
    .list [.text "ValueExpression", token.form,
      .optional (content.declared?.map fun ty => .text ty.text)]
  | read token declared _ => .list [.text "LocalExpression", token.form, .text declared.text]
  | assign token source _ => .list [.text "AssignmentExpression", token.form, source.form]
  | index token base key _ => .list [.text "ArrayExpression", token.form, base.form, key.form]

end Expr

end BodyCheck
