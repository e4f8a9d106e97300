import ServiceBindings.Diagnostic.Basic
import ServiceBindings.Diagnostic.Row
import ServiceBindings.Diagnostic.Window
import ServiceBindings.Text.Blank

/-!
# Snippets

Diagnostics shown with the line of the source that they point to, in plain text or with terminal
colors. Places are bytes of the source; the line shown is the one that holds the first byte, and the
marks run below the bytes of the place on that line, at least one of them. A line that is too long
is shown through a window, and the middle of a place that is much too long is left out.
-/

namespace ServiceBindings.Snippet

/-! ### Places -/

/-- A line of a source, with the bytes it starts at and ends before, its line feed included. -/
structure SourceLine where
  number : Nat
  text : List Char
  start : Nat
  stop : Nat

/-- The number of bytes of a text. -/
def byteSize : List Char → Nat
  | [] => 0
  | c :: cs => c.utf8Size + byteSize cs

/-- The lines that pieces between line feeds are, from a line number and a byte on. -/
def numberPieces (number start : Nat) : List (List Char) → List SourceLine
  | [] => []
  | [last] =>
    if last.isEmpty then [] else [⟨number, last, start, start + byteSize last⟩]
  | piece :: rest =>
    let stop := start + byteSize piece + 1
    ⟨number, Text.dropReturn piece, start, stop⟩ :: numberPieces (number + 1) stop rest

/-- The lines of a source; an empty source has one empty line. -/
def sourceLines (source : List Char) : List SourceLine :=
  if source.isEmpty then [⟨1, [], 0, 0⟩] else numberPieces 1 0 (Text.pieces '\n' source)

/-- The line that holds a byte, or else the last line. -/
def lineAt (lines : List SourceLine) (offset : Nat) : SourceLine :=
  match lines.find? fun line => line.start ≤ offset && offset < line.stop with
  | some line => line
  | none => lines.getLastD ⟨1, [], 0, 0⟩

/-- The characters of a text that lie before a byte. -/
def charsBefore : Nat → List Char → List Char
  | 0, _ => []
  | _, [] => []
  | offset + 1, c :: cs => c :: charsBefore (offset + 1 - c.utf8Size) cs

/-- The bytes that a span marks in a source of a given size; a span without bytes marks the next
one. -/
def markedRange (span : Span) (size : Nat) : Nat × Nat :=
  let start := min span.start size
  let stop := min span.stop size
  if stop ≤ start then (start, min (start + 1) size) else (start, stop)

/-- A place on a line. -/
structure Mark where
  line : SourceLine
  /-- The number of the first character on the line, from one on. -/
  position : Nat
  /-- The first marked column. -/
  start : Nat
  /-- The column after the marked ones. -/
  stop : Nat

/-! ### Texts -/

/-- Whether a character changes the direction of writing. -/
def turnsText (c : Char) : Bool :=
  (0x202a ≤ c.toNat && c.toNat ≤ 0x202e) || (0x2066 ≤ c.toNat && c.toNat ≤ 0x2069)

/-- How a character is shown: a tab as four spaces, a control character by its picture; a joiner is
dropped, and what changes the direction of writing is replaced. -/
def shownChar (c : Char) : List Char :=
  if c = '\t' then [' ', ' ', ' ', ' ']
  else if c = '\n' then ['\n']
  else if c.toNat < 32 then [Char.ofNat (0x2400 + c.toNat)]
  else if c.toNat = 127 then [Char.ofNat 0x2421]
  else if c.toNat = 0x200d then []
  else if turnsText c then [Char.ofNat 0xfffd]
  else [c]

/-- A text as it is shown. -/
def shown (cs : List Char) : List Char :=
  cs.flatMap shownChar

/-- The columns that a text takes when it is shown. -/
def shownWidth (cs : List Char) : Nat :=
  Text.width (shown cs)

/-- The columns of the blanks that a line starts with; a line of blanks counts as having none. -/
def leadingColumns (text : List Char) : Nat :=
  if text.all Text.isBlank then 0
  else ((text.takeWhile Text.isBlank).map fun c => if c = '\t' then 4 else 1).foldl (· + ·) 0

/-- The place that a span marks in a source. -/
def markAt (source : List Char) (span : Span) : Mark :=
  let (first, last) := markedRange span (byteSize source)
  let line := lineAt (sourceLines source) first
  let before := charsBefore (first - line.start) line.text
  let start := shownWidth before
  { line
    position := before.length + (if byteSize line.text < first - line.start then 2 else 1)
    start
    stop := max (start + 1) (shownWidth (charsBefore (last - line.start) line.text)) }

/-! ### Colors -/

/-- The palette with terminal colors for a severity. -/
def colors (severity : Severity) : Palette
  | .plain => ""
  | .level =>
    match severity with
    | .error => "\x1b[1m\x1b[91m"
    | .warning => "\x1b[1m\x1b[33m"
  | .frame => "\x1b[1m\x1b[94m"
  | .strong => "\x1b[1m"

/-! ### Rows -/

/-- The columns of a terminal. -/
def terminalWidth : Nat := 140

/-- The row below a gutter: spaces as wide as the line number, and the frame. -/
def barRow (gutter : Nat) : Row :=
  Row.spaces (gutter + 1) ++ Row.ofText .frame "|"

/-- A row with the part of a text drawn that a window shows, from a column on, and the first column
of the text that would stand there. -/
def drawText (row : Row) (offset : Nat) (window : Window) (text : List Char) : Row × Nat :=
  let width := Text.width text
  let left := window.left width
  let right := window.right width
  let (dropped, rest) := dropColumns left text
  let code := takeColumns (right - left) rest
  let first := max left dropped
  let isCut := 0 < window.start
  let (covered, tail) := if isCut then dropColumns Row.dots.length code else (0, code)
  let row := if isCut then row.put offset Row.dots else row
  let row := row.put (offset + covered) (Row.ofChars .plain tail)
  let lastCells := code.length - (dropColumns Row.dots.length code.reverse).2.length
  let row :=
    if right < width then row.put (offset + covered + tail.length - lastCells) Row.dots else row
  (row, first - (covered - Row.dots.length))

/-- The rows of a source line and of the marks below it, with the label of the marks. -/
def sourceRows (mark : Mark) (label : List Char) : List Row :=
  let number := toString mark.line.number
  let gutter := number.length
  let offset := gutter + 3
  let room := terminalWidth - offset
  let window := Window.choose
    { blanks := min (leadingColumns mark.line.text) mark.start
      start := mark.start
      stop := mark.stop
      labelStop := mark.stop + shownWidth label + 1
      width := shownWidth mark.line.text } room
  let numbered := Row.ofText .frame number ++ Row.spaces 1 ++ Row.ofText .frame "|"
  let (code, left) := drawText numbered offset window (shown mark.line.text)
  let first := offset + mark.start - left
  let last := max (first + 1) (offset + mark.stop - left)
  let marked := (barRow gutter).put first (Row.ofChars .level (List.replicate (last - first) '^'))
  let labelled := marked.put (offset + (mark.stop + 1 - left)) (Row.ofChars .level label)
  if 2 * room < mark.stop - mark.start then
    let kept := max (room / 3) 5
    [code.leaveOut (first + kept) (last - kept), labelled.leaveOut (first + kept) (last - kept)]
  else [code, labelled]

/-- The rows that show a diagnostic with its place. -/
def rowsAt (source : List Char) (path : Option String) (diagnostic : Diagnostic) (span : Span) :
    List Row :=
  let mark := markAt source span
  let message := diagnostic.message.toList
  let number := toString mark.line.number
  let gutter := number.length
  let title := Row.hanging
    (Row.ofText .level (diagnostic.severity.text ++ "[" ++ diagnostic.kind.code ++ "]")
      ++ Row.ofText .strong ": ")
    .strong (shown message)
  let place := path.toList.map fun path =>
    Row.spaces gutter ++ Row.ofText .frame "--> "
      ++ Row.ofText .plain (path ++ ":" ++ number ++ ":" ++ toString mark.position)
  let help := diagnostic.hints.flatMap fun hint =>
    Row.hanging
      (Row.spaces (gutter + 1) ++ Row.ofText .frame "= " ++ Row.ofText .strong "help"
        ++ Row.ofText .plain ": ")
      .plain hint.toList
  title ++ place ++ barRow gutter :: sourceRows mark message
    ++ (if help.isEmpty then [] else barRow gutter :: help)

/-- A diagnostic with its place, if it has one. -/
def showDiagnostic (colored : Bool) (source : List Char) (path : Option String)
    (diagnostic : Diagnostic) : String :=
  match diagnostic.span with
  | none => diagnostic.display
  | some span =>
    let palette := if colored then colors diagnostic.severity else Palette.plain
    "\n".intercalate ((rowsAt source path diagnostic span).map (Row.render palette))

end ServiceBindings.Snippet

namespace ServiceBindings

/-- The report of diagnostics: one line each, or, with a source, snippets of it. -/
def renderDiagnostics (diagnostics : List Diagnostic) (source path : Option String)
    (colored : Bool) : String :=
  let shown :=
    match source with
    | none => diagnostics.map Diagnostic.display
    | some source => diagnostics.map (Snippet.showDiagnostic colored source.toList path)
  "\n".intercalate shown

end ServiceBindings
