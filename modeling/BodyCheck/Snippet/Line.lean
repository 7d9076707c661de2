import BodyCheck.Snippet.Width

/-!
# Lines of a source

A source is shown line by line.  Places in it are given by the number of bytes before them, so
each line knows where it starts and each of its characters where it stands.

## Main definitions

* `Line` — a line of a source, with the line feed that ends it.
* `Line.ofSource` — the lines of a source, of which there is always at least one.
* `Line.containing` — the line that an offset belongs to.
* `Cell` — a character of a line as it is shown.
* `Line.cells` — the characters of a line that are shown.
-/

namespace BodyCheck

/-- A line of a source: its number, counted from one, the number of bytes before it, and its
characters with the line feed at its end. -/
structure Line where
  number : Nat
  start : Nat
  chars : List Char
deriving DecidableEq, Repr, Inhabited

/-- A character of a line: the number of bytes of the line before it, and the columns it takes. -/
structure Cell where
  char : Char
  offset : Nat
  width : Nat
deriving DecidableEq, Repr, Inhabited

namespace Line

/-- The number of bytes that characters take in a source. -/
def byteLength (cs : List Char) : Nat :=
  (cs.map Char.utf8Size).foldr (· + ·) 0

/-- Splits a text behind every line feed; what follows the last one is a line as well. -/
def split : List Char → List (List Char)
  | [] => [[]]
  | c :: cs =>
    if c = '\n' then [c] :: split cs
    else
      match split cs with
      | [] => [[c]]
      | line :: others => (c :: line) :: others

/-- Splitting loses nothing. -/
theorem flatten_split (cs : List Char) : (split cs).flatten = cs := by
  induction cs with
  | nil => rfl
  | cons c cs ih =>
    unfold split
    split
    · simp [ih]
    · split <;> simp_all

/-- Numbers lines that follow each other. -/
def enumerate (number start : Nat) : List (List Char) → List Line
  | [] => []
  | chars :: others =>
    ⟨number, start, chars⟩ :: enumerate (number + 1) (start + byteLength chars) others

/-- The lines of a source. -/
def ofSource (source : String) : List Line :=
  enumerate 1 0 (split source.toList)

/-- The line that an offset belongs to: the last one that does not start behind it. -/
def containing (lines : List Line) (offset : Nat) : Line :=
  (lines.takeWhile (·.start ≤ offset)).getLastD ⟨1, 0, []⟩

/-- The number of characters that end at or before an offset from the start of a line. -/
def charsUpTo (offset : Nat) : List Char → Nat
  | [] => 0
  | c :: cs => if c.utf8Size ≤ offset then charsUpTo (offset - c.utf8Size) cs + 1 else 0

/-- The column of an offset into the source, counted from one; an offset behind the line counts
as its end. -/
def column (line : Line) (offset : Nat) : Nat :=
  charsUpTo (offset - line.start) line.chars + 1

/-- Whether a character at the end of a line is never shown. -/
def isEnding (c : Char) : Bool :=
  c = '\n' || c = '\r' || c.toNat = 0

/-- The characters of a line without those that are not shown at its end. -/
def shown (line : Line) : List Char :=
  (line.chars.reverse.dropWhile isEnding).reverse

/-- Lays characters out, the first one at the given offset and column.  A tab reaches up to the
next column that is a multiple of four. -/
def layOut (offset column : Nat) : List Char → List Cell
  | [] => []
  | c :: cs =>
    let width := if c = '\t' then 4 - column % 4 else Width.ofChar c
    ⟨c, offset, width⟩ :: layOut (offset + c.utf8Size) (column + width) cs

/-- The characters of a line that are shown. -/
def cells (line : Line) : List Cell :=
  layOut 0 0 line.shown

/-- The text of a line as it is shown, with blanks for tabs. -/
def text (line : Line) : String :=
  String.ofList (line.cells.flatMap fun cell =>
    if cell.char = '\t' then List.replicate cell.width ' ' else [cell.char])

/-- Whether a character is white space, by the definition of Unicode. -/
def isBlank (c : Char) : Bool :=
  Width.inRanges
    [(0x9, 0xD), (0x20, 0x20), (0x85, 0x85), (0xA0, 0xA0), (0x1680, 0x1680), (0x2000, 0x200A),
      (0x2028, 0x2029), (0x202F, 0x202F), (0x205F, 0x205F), (0x3000, 0x3000)] c.toNat

/-- The number of bytes of the white space that a line begins with. -/
def indent (line : Line) : Nat :=
  byteLength (line.shown.takeWhile isBlank)

end Line

end BodyCheck
