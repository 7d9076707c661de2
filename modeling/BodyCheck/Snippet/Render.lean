import BodyCheck.Diagnostic
import BodyCheck.Snippet.Line

/-!
# Diagnostics beside their source

Shows a diagnostic together with the lines of the source that the span of its token covers, and
with a mark under or around the covered text.

## Main definitions

* `SourceFile` — a source with its name.
* `Snippet` — a diagnostic, the lines of its file, and the lines at both ends of its span.
* `Snippet.rows` — the rows of the picture.
* `SourceSet` — the files that diagnostics may refer to.
* `SourceSet.render` — the picture of a diagnostic as text.

## Design notes

A span within one line is underlined.  A span over several lines has its ends pointed at from a
gutter to the left of the source, joined by a bar along the lines between.  When the span stops
on a line above the one it starts on, the two ends are shown in the order of their lines, with
nothing to join them.
-/

namespace BodyCheck

/-- A source and its name. -/
structure SourceFile where
  name : String
  source : String
deriving DecidableEq, Repr, Inhabited

/-- A diagnostic with the lines of its file. -/
structure Snippet where
  fileName : String
  lines : List Line
  diagnostic : Diagnostic
deriving Repr, Inhabited

namespace Snippet

/-- The span that is shown. -/
def span (snippet : Snippet) : Span :=
  snippet.diagnostic.token.span

/-- The line on which the span starts. -/
def first (snippet : Snippet) : Line :=
  .containing snippet.lines snippet.span.start

/-- The line on which the span stops. -/
def last (snippet : Snippet) : Line :=
  .containing snippet.lines snippet.span.stop

/-- The width of the line numbers. -/
def numberWidth (snippet : Snippet) : Nat :=
  (toString (max snippet.first.number snippet.last.number)).length

/-- A text repeated. -/
def repeated (n : Nat) (c : Char) : String :=
  String.ofList (List.replicate n c)

/-- What takes the place of a line number on a row that is no line. -/
def margin (snippet : Snippet) : String :=
  repeated (snippet.numberWidth + 1) ' '

/-- The message, set off from what is before it; an empty message is left out. -/
def remark (snippet : Snippet) : String :=
  if snippet.diagnostic.message = "" then "" else " " ++ snippet.diagnostic.message

/-- The row of a source line. -/
def sourceRow (snippet : Snippet) (gutter : String) (line : Line) : String :=
  let number := toString line.number
  repeated (snippet.numberWidth - number.length) ' ' ++ number ++ " │" ++ gutter ++ " " ++ line.text

/-- What stands under a cell of a line of which the bytes from `start` up to `stop` are marked. -/
def underline (start stop : Nat) (cell : Cell) : String :=
  if max cell.offset start < min (cell.offset + cell.char.utf8Size) stop then
    repeated cell.width '^'
  else if cell.offset < stop then repeated cell.width ' '
  else ""

/-- The cells of a line with one more behind the end, where a span may start as well. -/
def cellsWithEnd (line : Line) : List Cell :=
  line.cells ++ [⟨' ', Line.byteLength line.shown, 1⟩]

/-- The rows of a span within one line: the line and a mark under it, of one byte at least. -/
def rowsWithinLine (snippet : Snippet) (line : Line) : List String :=
  let start := snippet.span.start - line.start
  let stop := max (snippet.span.stop - line.start) (start + 1)
  [snippet.sourceRow "" line,
    snippet.margin ++ "│ " ++ String.join ((cellsWithEnd line).map (underline start stop))
      ++ snippet.remark]

/-- A horizontal bar above or below the cells of a line whose offset is less than `stop`. -/
def bar (line : Line) (stop : Nat) : String :=
  repeated (((line.cells.takeWhile (·.offset < stop)).map (·.width)).foldr (· + ·) 0) '─'

/-- The rows of the line on which a span over several lines starts.  The bar along the lines
begins beside the line itself if nothing but white space comes before the span. -/
def startRows (snippet : Snippet) : List String :=
  let line := snippet.first
  let start := snippet.span.start - line.start
  if start ≤ line.indent then [snippet.sourceRow " ╭" line]
  else
    [snippet.sourceRow "  " line, snippet.margin ++ "│ ╭" ++ bar line (start + 1) ++ "^"]

/-- The rows of the line on which a span over several lines stops. -/
def stopRows (snippet : Snippet) : List String :=
  let line := snippet.last
  [snippet.sourceRow " │" line,
    snippet.margin ++ "│ ╰" ++ bar line (snippet.span.stop - line.start) ++ "^" ++ snippet.remark]

/-- The rows in place of lines that are left out; a single line is not worth leaving out. -/
def hiddenRows (snippet : Snippet) (gutter : String) : List Line → List String
  | [] => []
  | [line] => [snippet.sourceRow gutter line]
  | _ :: _ :: _ => [snippet.margin ++ "· │"]

/-- The lines strictly between two lines. -/
def linesBetween (snippet : Snippet) (upper lower : Line) : List Line :=
  snippet.lines.filter fun line => upper.number < line.number && line.number < lower.number

/-- The rows of a span over several lines.  Of the lines between its ends the first three and the
last one are shown. -/
def rowsOverLines (snippet : Snippet) : List String :=
  if snippet.first.number < snippet.last.number then
    let between := snippet.linesBetween snippet.first snippet.last
    let rest := between.drop 3
    snippet.startRows
      ++ (between.take 3).map (snippet.sourceRow " │")
      ++ snippet.hiddenRows " │" rest.dropLast
      ++ (rest.drop (rest.length - 1)).map (snippet.sourceRow " │")
      ++ snippet.stopRows
  else
    snippet.stopRows
      ++ snippet.hiddenRows "  " (snippet.linesBetween snippet.last snippet.first)
      ++ snippet.startRows

/-- The heading of a diagnostic. -/
def heading (snippet : Snippet) : String :=
  match snippet.diagnostic.problem.kind with
  | .semantic => "error: Semantic error"
  | .type => "error: Type error"

/-- The row that names the place. -/
def placeRow (snippet : Snippet) : String :=
  snippet.margin ++ "┌─ " ++ snippet.fileName ++ ":" ++ toString snippet.first.number ++ ":"
    ++ toString (snippet.first.column snippet.span.start)

/-- The rows of the whole picture. -/
def rows (snippet : Snippet) : List String :=
  if snippet.first.number = snippet.last.number then
    snippet.heading :: snippet.placeRow :: (snippet.margin ++ "│")
      :: snippet.rowsWithinLine snippet.first ++ [""]
  else
    snippet.heading :: snippet.placeRow :: (snippet.margin ++ "│  ")
      :: snippet.rowsOverLines ++ [""]

/-- The picture as text. -/
def text (snippet : Snippet) : String :=
  String.join (snippet.rows.map (· ++ "\n"))

end Snippet

/-- The files that diagnostics may refer to, by their position. -/
structure SourceSet where
  files : List SourceFile
deriving DecidableEq, Repr, Inhabited

namespace SourceSet

/-- No files. -/
def empty : SourceSet :=
  ⟨[]⟩

/-- Adds a file, and gives the position under which it is found. -/
def add (sources : SourceSet) (file : SourceFile) : SourceSet × Nat :=
  (⟨sources.files ++ [file]⟩, sources.files.length)

/-- Shows a diagnostic beside the file at a position.  Without such a file, the diagnostic is
given as a line of text. -/
def render (sources : SourceSet) (position : Nat) (diagnostic : Diagnostic) : String :=
  match sources.files[position]? with
  | some file => Snippet.text ⟨file.name, Line.ofSource file.source, diagnostic⟩
  | none => diagnostic.text

end SourceSet

end BodyCheck
