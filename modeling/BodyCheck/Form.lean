import BodyCheck.Token

/-!
# Structural forms

A structural form is the bare shape of a tree: lists, texts and numbers, with null in the place
of a part that is absent.  It is written out in a notation without blanks.

## Main definitions

* `Form` — a structural form.
* `Form.write` — the form written out.
* `Token.form` — a token as it stands in the form of a tree: without its span.

## Design notes

Writing goes over lists of characters, where the shape of the output is plain to see; a string
is made of it only at the end.  Inside a quoted text the quote, the backslash and the control
characters below the blank are escaped, and every other character stands for itself.
-/

namespace BodyCheck

/-- The bare shape of a tree. -/
inductive Form
  | null
  | nat (n : Nat)
  | text (s : String)
  | list (items : List Form)
deriving Repr, Inhabited

namespace Form

/-- A part that may be absent. -/
def optional : Option Form → Form
  | none => null
  | some form => form

/-- A character as it is written between quotes. -/
def escape (c : Char) : List Char :=
  if c = '"' then ['\\', '"']
  else if c = '\\' then ['\\', '\\']
  else if c = '\x08' then ['\\', 'b']
  else if c = '\t' then ['\\', 't']
  else if c = '\n' then ['\\', 'n']
  else if c = '\x0c' then ['\\', 'f']
  else if c = '\r' then ['\\', 'r']
  else if c.toNat < 0x20 then
    ['\\', 'u', '0', '0', Nat.digitChar (c.toNat / 16), Nat.digitChar (c.toNat % 16)]
  else [c]

/-- A text between quotes. -/
def quoted (cs : List Char) : List Char :=
  '"' :: cs.flatMap escape ++ ['"']

mutual

/-- The characters that a form is written with. -/
def chars : Form → List Char
  | null => ['n', 'u', 'l', 'l']
  | nat n => Nat.toDigits 10 n
  | text s => quoted s.toList
  | list [] => ['[', ']']
  | list (first :: others) => '[' :: first.chars ++ charsOfOthers others

/-- The characters from the end of one item of a list up to the end of the list. -/
def charsOfOthers : List Form → List Char
  | [] => [']']
  | next :: others => ',' :: next.chars ++ charsOfOthers others

end

/-- A form written out. -/
def write (form : Form) : String :=
  String.ofList form.chars

end Form

/-- A token in the form of a tree: its text and its place, without the span. -/
def Token.form (token : Token) : Form :=
  .list [.text token.value, .optional (token.file.map .text), .nat token.line, .nat token.column]

end BodyCheck
