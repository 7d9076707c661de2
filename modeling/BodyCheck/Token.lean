/-!
# Tokens

A token is a piece of source text together with the place it was read from.  Diagnostics,
faults and events refer to the program under analysis only through tokens.

## Main definitions

* `Span` — a range of bytes of a source text.
* `Token` — the text, its file, its line and column, and its span.
* `Token.location` — the place of a token as it is shown to people.
-/

namespace BodyCheck

/-- A range of bytes of a source text, from `start` up to but not including `stop`. -/
structure Span where
  start : Nat
  stop : Nat
deriving DecidableEq, Repr, Inhabited

namespace Span

/-- The number of bytes covered; a span that stops before it starts covers none. -/
def length (span : Span) : Nat :=
  span.stop - span.start

/-- Whether the span covers no byte at all. -/
def isEmpty (span : Span) : Bool :=
  span.length == 0

/-- A span is empty just if it stops before it has begun or where it begins. -/
theorem isEmpty_iff {span : Span} : span.isEmpty = true ↔ span.stop ≤ span.start := by
  simp [isEmpty, length, Nat.sub_eq_zero_iff_le]

end Span

/-- A piece of source text and where it stands.  A token made up by a tool belongs to no file. -/
structure Token where
  value : String
  file : Option String
  line : Nat
  column : Nat
  span : Span
deriving DecidableEq, Repr, Inhabited

namespace Token

/-- A token that was not read from any source. -/
def synthetic (value : String) : Token :=
  ⟨value, none, 0, 0, ⟨0, 0⟩⟩

/-- The file a token is shown to come from. -/
def fileName (token : Token) : String :=
  token.file.getD "<unknown>"

/-- The place of a token, as `file:line:column`. -/
def location (token : Token) : String :=
  token.fileName ++ ":" ++ toString token.line ++ ":" ++ toString token.column

end Token

end BodyCheck
