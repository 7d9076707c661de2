import BodyCheck.Proofs.Writing
import BodyCheck.Stmt.Form
import Mathlib.Data.List.Forall2

/-!
# Likeness

What can be told from the written form of a tree, and what is lost in it.

## Main definitions

* `Token.Alike`, `Value.Alike`, `Expr.Alike`, `QualifiedName.Alike`, `Simple.Alike`, `Header.Alike`,
  `Stmt.Alike`, `Stmt.AlikeList` — trees with the same shape and contents.

## Main statements

* `Token.form_eq_iff`, …, `Stmt.form_eq_iff` — forms are equal just for trees that are alike.
* `Stmt.write_eq_iff_alike` — and so are the texts that bodies are written as.

## Design notes

Likeness leaves out the spans of tokens, the keywords of all statements but jumps, what makes a
value go without a type, everything about types but their names, and all that analysis finds.  It
compares part by part and knows nothing of forms; parts that may be absent are alike if both are
absent, or both are there and alike.
-/

namespace BodyCheck

/-! ## Parts that may be absent -/

namespace Form

/-- Present parts have forms of their own, so that none of them is taken for an absent part. -/
theorem optional_eq_iff {α : Type} {form : α → Form} {Alike : α → α → Prop}
    (form_eq_iff : ∀ a b, form a = form b ↔ Alike a b) (form_ne_null : ∀ a, form a ≠ null)
    {a b : Option α} :
    optional (a.map form) = optional (b.map form) ↔ Option.Rel Alike a b := by
  cases a with
  | none =>
    cases b with
    | none => exact iff_of_true rfl .none
    | some b =>
      refine iff_of_false ?_ nofun
      intro same
      exact form_ne_null b same.symm
  | some a =>
    cases b with
    | none => exact iff_of_false (form_ne_null a) nofun
    | some b => exact (form_eq_iff a b).trans Option.rel_some_some.symm

/-- Lists have the same forms just if their elements are alike one by one. -/
theorem map_eq_iff {α : Type} {form : α → Form} {Alike : α → α → Prop}
    (form_eq_iff : ∀ a b, form a = form b ↔ Alike a b) {as bs : List α} :
    as.map form = bs.map form ↔ List.Forall₂ Alike as bs := by
  rw [← List.forall₂_eq_eq_eq, List.forall₂_map_left_iff, List.forall₂_map_right_iff]
  simp only [form_eq_iff]

end Form

/-! ## Tokens and names -/

namespace Token

/-- The tokens have the same text and stand at the same place. -/
structure Alike (a b : Token) : Prop where
  value : a.value = b.value
  file : a.file = b.file
  line : a.line = b.line
  column : a.column = b.column

/-- Tokens have the same form just if they are alike. -/
theorem form_eq_iff (a b : Token) : a.form = b.form ↔ a.Alike b := by
  have file :
      Form.optional (a.file.map .text) = .optional (b.file.map .text) ↔ a.file = b.file := by
    cases a.file <;> cases b.file <;> simp [Form.optional]
  simp only [form, Form.list.injEq, List.cons.injEq, Form.text.injEq, Form.nat.injEq, file,
    and_true]
  constructor
  · rintro ⟨value, file, line, column⟩
    exact ⟨value, file, line, column⟩
  · rintro ⟨value, file, line, column⟩
    exact ⟨value, file, line, column⟩

/-- An absent token is like another absent one only. -/
theorem formOptional_eq_iff {a b : Option Token} :
    formOptional a = formOptional b ↔ Option.Rel Alike a b :=
  Form.optional_eq_iff form_eq_iff nofun

end Token

namespace QualifiedName

/-- The names are alike, and both are of an import with the same alias or of none. -/
structure Alike (a b : QualifiedName) : Prop where
  token : a.token.Alike b.token
  importAlias : Option.Rel Token.Alike a.importAlias b.importAlias

/-- Qualified names have the same form just if both their parts are alike. -/
theorem form_eq_iff (a b : QualifiedName) : a.form = b.form ↔ a.Alike b := by
  have importAlias := Form.optional_eq_iff Token.form_eq_iff nofun
    (a := a.importAlias) (b := b.importAlias)
  simp only [form, Form.list.injEq, List.cons.injEq, Token.form_eq_iff, importAlias, and_true,
    true_and]
  constructor
  · rintro ⟨token, importAlias⟩
    exact ⟨token, importAlias⟩
  · rintro ⟨token, importAlias⟩
    exact ⟨token, importAlias⟩

end QualifiedName

/-! ## Expressions -/

/-- Both values have types of the same name, or none has a type. -/
def Value.Alike : Value → Value → Prop
  | .typed a, .typed b => a.text = b.text
  | .typed _, _ | _, .typed _ => False
  | _, _ => True

/-- Of a value only the type that is settled for it shows in its form. -/
theorem Value.declared?_eq_iff (a b : Value) :
    Form.optional (a.declared?.map fun ty => .text ty.text)
        = .optional (b.declared?.map fun ty => .text ty.text) ↔ a.Alike b := by
  cases a <;> cases b <;> simp [declared?, Form.optional, Alike]

namespace Expr

/-- The expressions have the same shape and contents. -/
def Alike : Expr → Expr → Prop
  | value token content _, value token' content' _ => token.Alike token' ∧ content.Alike content'
  | read token declared _, read token' declared' _ =>
    token.Alike token' ∧ declared.text = declared'.text
  | assign token source _, assign token' source' _ => token.Alike token' ∧ source.Alike source'
  | index token base key _, index token' base' key' _ =>
    token.Alike token' ∧ base.Alike base' ∧ key.Alike key'
  | _, _ => False

/-- Expressions have the same form just if they are alike in all parts; what is known of their types
does not show. -/
theorem form_eq_iff (e f : Expr) : e.form = f.form ↔ e.Alike f := by
  induction e generalizing f with
  | value token content known =>
    cases f with
    | value => simp [form, Alike, Token.form_eq_iff, Value.declared?_eq_iff]
    | _ => simp [form, Alike]
  | read token declared known =>
    cases f with
    | read => simp [form, Alike, Token.form_eq_iff]
    | _ => simp [form, Alike]
  | assign token source known ih =>
    cases f with
    | assign => simp [form, Alike, Token.form_eq_iff, ih]
    | _ => simp [form, Alike]
  | index token base key known ihBase ihKey =>
    cases f with
    | index => simp [form, Alike, Token.form_eq_iff, ihBase, ihKey]
    | _ => simp [form, Alike]

/-- An expression that is there does not look like one that is absent. -/
theorem form_ne_null (e : Expr) : e.form ≠ .null := by
  cases e <;> exact nofun

/-- Expressions that may be absent have the same form just if both are, or neither is and they are
alike. -/
theorem formOptional_eq_iff {e f : Option Expr} :
    formOptional e = formOptional f ↔ Option.Rel Alike e f :=
  Form.optional_eq_iff form_eq_iff form_ne_null

/-- Lists of expressions have the same form just if they are alike one by one. -/
theorem formOfList_eq_iff {es fs : List Expr} :
    formOfList es = formOfList fs ↔ List.Forall₂ Alike es fs := by
  rw [formOfList, formOfList, Form.list.injEq]
  exact Form.map_eq_iff form_eq_iff

end Expr

/-! ## Simple statements and headers -/

namespace Simple

/-- The statements are of the same kind and have the same contents. -/
def Alike : Simple → Simple → Prop
  | construct target args _, construct target' args' _ =>
    target.Alike target' ∧ List.Forall₂ Expr.Alike args args'
  | expression e, expression f | ret _ e, ret _ f | delete _ e, delete _ f
  | caseLabel _ e, caseLabel _ f => e.Alike f
  | jump kind keyword label, jump kind' keyword' label' =>
    kind = kind' ∧ keyword.Alike keyword' ∧ Option.Rel Token.Alike label label'
  | defaultLabel _, defaultLabel _ => True
  | assert _ es, assert _ fs | log _ es, log _ fs => List.Forall₂ Expr.Alike es fs
  | _, _ => False

/-- The name of a jump tells its kind, and no other statement goes by it. -/
theorem name_jump_eq_iff (kind : JumpKind) (keyword : Token) (label : Option Token) (s : Simple) :
    s.name = (jump kind keyword label).name ↔ ∃ keyword' label', s = jump kind keyword' label' := by
  cases s with
  | jump kind' => cases kind <;> cases kind' <;> simp [name]
  | _ => cases kind <;> simp [name]

/-- Simple statements have the same form just if they are alike; what an invocation was found to
mean does not show. -/
theorem form_eq_iff (s t : Simple) : s.form = t.form ↔ s.Alike t := by
  cases s with
  | construct target args resolution =>
    cases t with
    | construct => simp [form, name, Alike, QualifiedName.form_eq_iff, Expr.formOfList_eq_iff]
    | jump => simp [form, name_jump_eq_iff, Alike]
    | _ => simp [form, name, Alike]
  | expression e =>
    cases t with
    | expression => simp [form, name, Alike, Expr.form_eq_iff]
    | jump => simp [form, name_jump_eq_iff, Alike]
    | _ => simp [form, name, Alike]
  | ret keyword e =>
    cases t with
    | ret => simp [form, name, Alike, Expr.form_eq_iff]
    | jump => simp [form, name_jump_eq_iff, Alike]
    | _ => simp [form, name, Alike]
  | delete keyword e =>
    cases t with
    | delete => simp [form, name, Alike, Expr.form_eq_iff]
    | jump => simp [form, name_jump_eq_iff, Alike]
    | _ => simp [form, name, Alike]
  | jump kind keyword label =>
    cases t with
    | jump => simp [form, name_jump_eq_iff, Alike, Token.form_eq_iff, Token.formOptional_eq_iff]
    | _ => cases kind <;> simp [form, name, Alike]
  | caseLabel keyword e =>
    cases t with
    | caseLabel => simp [form, name, Alike, Expr.form_eq_iff]
    | jump => simp [form, name_jump_eq_iff, Alike]
    | _ => simp [form, name, Alike]
  | defaultLabel keyword =>
    cases t with
    | defaultLabel => simp [form, name, Alike]
    | jump => simp [form, name_jump_eq_iff, Alike]
    | _ => simp [form, name, Alike]
  | assert keyword exprs =>
    cases t with
    | assert => simp [form, name, Alike, Expr.formOfList_eq_iff]
    | jump => simp [form, name_jump_eq_iff, Alike]
    | _ => simp [form, name, Alike]
  | log keyword exprs =>
    cases t with
    | log => simp [form, name, Alike, Expr.formOfList_eq_iff]
    | jump => simp [form, name_jump_eq_iff, Alike]
    | _ => simp [form, name, Alike]

end Simple

namespace Header

/-- The headers are of the same kind and have the same expressions. -/
def Alike : Header → Header → Prop
  | doWhile e, doWhile f | whileLoop e, whileLoop f | switch e, switch f => e.Alike f
  | forIn loopVariable operand, forIn loopVariable' operand' =>
    loopVariable.Alike loopVariable' ∧ operand.Alike operand'
  | forLoop start cond step, forLoop start' cond' step' =>
    Option.Rel Expr.Alike start start' ∧ Option.Rel Expr.Alike cond cond' ∧
      Option.Rel Expr.Alike step step'
  | _, _ => False

/-- Headers are alike just if they have the same name and forms, whatever stands behind these. -/
theorem forms_eq_iff (g h : Header) (body body' : Form) :
    g.name = h.name ∧ g.forms ++ [body] = h.forms ++ [body'] ↔ g.Alike h ∧ body = body' := by
  cases g <;> cases h <;>
    simp [name, forms, Alike, Expr.form_eq_iff, Token.form_eq_iff, Expr.formOptional_eq_iff,
      and_assoc]

/-- A loop or switch is no statement of another kind. -/
theorem name_ne (header : Header) : header.name ≠ "IfStatement" ∧ header.name ≠ "TryStatement" := by
  cases header <;> simp [name]

end Header

/-- A simple statement is not taken for one that has statements inside it. -/
theorem Simple.name_ne (s : Simple) :
    s.name ≠ "IfStatement" ∧ s.name ≠ "TryStatement" ∧ ∀ header : Header, s.name ≠ header.name := by
  refine ⟨?_, ?_, fun header => ?_⟩
  · rcases s with _ | _ | _ | _ | ⟨_ | _, _, _⟩ | _ | _ | _ | _ <;> simp [name]
  · rcases s with _ | _ | _ | _ | ⟨_ | _, _, _⟩ | _ | _ | _ | _ <;> simp [name]
  · rcases s with _ | _ | _ | _ | ⟨_ | _, _, _⟩ | _ | _ | _ | _ <;>
      cases header <;> simp [name, Header.name]

/-! ## Statements -/

namespace Stmt

mutual

/-- The statements have the same shape and contents. -/
def Alike : Stmt → Stmt → Prop
  | simple s, simple t => s.Alike t
  | breakable _ label header body, breakable _ label' header' body' =>
    Option.Rel Token.Alike label label' ∧ header.Alike header' ∧ AlikeList body body'
  | ifElse _ cond onTrue onFalse, ifElse _ cond' onTrue' onFalse' =>
    cond.Alike cond' ∧ AlikeList onTrue onTrue' ∧ AlikeList onFalse onFalse'
  | guarded _ body caught handler finalizer, guarded _ body' caught' handler' finalizer' =>
    AlikeList body body' ∧ Option.Rel Token.Alike caught caught' ∧ AlikePart handler handler' ∧
      AlikePart finalizer finalizer'
  | _, _ => False

/-- The lists have statements with the same shape and contents, one by one. -/
def AlikeList : List Stmt → List Stmt → Prop
  | [], [] => True
  | s :: rest, s' :: rest' => s.Alike s' ∧ AlikeList rest rest'
  | _, _ => False

/-- Both lists are absent, or both are there and alike. -/
def AlikePart : Option (List Stmt) → Option (List Stmt) → Prop
  | none, none => True
  | some body, some body' => AlikeList body body'
  | _, _ => False

end

/-- A statement is written behind its name. -/
theorem form_ne_of_name_ne {s t : Stmt} (h : s.name ≠ t.name) : s.form ≠ t.form := by
  have exists_form_eq (u : Stmt) : ∃ parts, u.form = .list (.text u.name :: parts) := by
    cases u <;> exact ⟨_, rfl⟩
  obtain ⟨parts, formS⟩ := exists_form_eq s
  obtain ⟨parts', formT⟩ := exists_form_eq t
  rw [formS, formT]
  intro same
  exact h (Form.text.inj (List.cons.inj (Form.list.inj same)).1)

mutual

/-- Statements have the same form just if they are alike. -/
theorem form_eq_iff : (s t : Stmt) → (s.form = t.form ↔ s.Alike t)
  | simple s, t => by
    obtain ⟨notIf, notTry, notHeader⟩ := s.name_ne
    cases t with
    | simple t => simp [form, Alike, Simple.form_eq_iff]
    | breakable keyword label header body =>
      exact iff_of_false (form_ne_of_name_ne (notHeader header)) nofun
    | ifElse => exact iff_of_false (form_ne_of_name_ne notIf) nofun
    | guarded => exact iff_of_false (form_ne_of_name_ne notTry) nofun
  | breakable keyword label header body, t => by
    obtain ⟨notIf, notTry⟩ := header.name_ne
    cases t with
    | simple t => exact iff_of_false (form_ne_of_name_ne (t.name_ne.2.2 header).symm) nofun
    | breakable keyword' label' header' body' =>
      have bodies :
          Form.list (formsOfList body) = .list (formsOfList body') ↔ AlikeList body body' := by
        rw [Form.list.injEq, formsOfList_eq_iff body body']
      have headed := header.forms_eq_iff header' (.list (formsOfList body))
        (.list (formsOfList body'))
      rw [bodies] at headed
      rw [Alike, ← headed]
      simp [form, Token.formOptional_eq_iff, and_left_comm]
    | ifElse => exact iff_of_false (form_ne_of_name_ne notIf) nofun
    | guarded => exact iff_of_false (form_ne_of_name_ne notTry) nofun
  | ifElse keyword cond onTrue onFalse, t => by
    cases t with
    | simple t => exact iff_of_false (form_ne_of_name_ne t.name_ne.1.symm) nofun
    | breakable keyword' label header body =>
      exact iff_of_false (form_ne_of_name_ne header.name_ne.1.symm) nofun
    | ifElse keyword' cond' onTrue' onFalse' =>
      simp [form, Alike, Expr.form_eq_iff, formsOfList_eq_iff onTrue, formsOfList_eq_iff onFalse]
    | guarded => simp [form, Alike]
  | guarded keyword body caught handler finalizer, t => by
    cases t with
    | simple t => exact iff_of_false (form_ne_of_name_ne t.name_ne.2.1.symm) nofun
    | breakable keyword' label header body =>
      exact iff_of_false (form_ne_of_name_ne header.name_ne.2.symm) nofun
    | ifElse => simp [form, Alike]
    | guarded keyword' body' caught' handler' finalizer' =>
      simp [form, Alike, Token.formOptional_eq_iff, formsOfList_eq_iff body,
        formOfPart_eq_iff handler, formOfPart_eq_iff finalizer]

/-- So do lists. -/
theorem formsOfList_eq_iff : (body body' : List Stmt) →
    (formsOfList body = formsOfList body' ↔ AlikeList body body')
  | [], [] => by simp [formsOfList, AlikeList]
  | [], s :: rest => by simp [formsOfList, AlikeList]
  | s :: rest, [] => by simp [formsOfList, AlikeList]
  | s :: rest, s' :: rest' => by
    simp [formsOfList, AlikeList, form_eq_iff s s', formsOfList_eq_iff rest rest']

/-- A part that is absent has another form than one without statements. -/
theorem formOfPart_eq_iff : (part part' : Option (List Stmt)) →
    (formOfPart part = formOfPart part' ↔ AlikePart part part')
  | none, none => by simp [formOfPart, AlikePart]
  | none, some body => by simp [formOfPart, AlikePart]
  | some body, none => by simp [formOfPart, AlikePart]
  | some body, some body' => by
    simp [formOfPart, AlikePart, formsOfList_eq_iff body body']

end

/-- **Likeness.**  Two bodies are written as the same text just if they are alike: whatever texts
their tokens have, nothing else is lost, and no part that is absent is taken for one that is there
or has nothing in it. -/
theorem write_eq_iff_alike (body body' : List Stmt) :
    (formOfList body).write = (formOfList body').write ↔ AlikeList body body' := by
  rw [← formsOfList_eq_iff]
  constructor
  · intro same
    exact Form.list.inj (Form.write_injective same)
  · intro same
    rw [formOfList, formOfList, same]

end Stmt

end BodyCheck
