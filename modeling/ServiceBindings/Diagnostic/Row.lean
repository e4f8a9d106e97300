import ServiceBindings.Text.Lines

/-!
# Rows

What a terminal shows is drawn row by row. A row is a list of cells, each a character in an ink, and
it is written with a terminal code wherever the ink changes.
-/

namespace ServiceBindings

/-- The inks of a row. -/
inductive Ink where
  | plain
  /-- The ink of the severity of a problem. -/
  | level
  /-- The ink of the frame around a source. -/
  | frame
  | strong
  deriving DecidableEq, Repr

/-- A character in an ink. -/
structure Cell where
  char : Char
  ink : Ink
  deriving DecidableEq, Repr

/-- The cells of a row from left to right. -/
abbrev Row := List Cell

namespace Row

/-- A text in one ink. -/
def ofChars (ink : Ink) (text : List Char) : Row :=
  text.map fun c => ⟨c, ink⟩

/-- A text in one ink. -/
def ofText (ink : Ink) (text : String) : Row :=
  ofChars ink text.toList

/-- Spaces. -/
def spaces (count : Nat) : Row :=
  List.replicate count ⟨' ', .plain⟩

/-- The cells that stand for what is left out. -/
def dots : Row :=
  ofText .frame "..."

/-- The row with cells drawn over it from a column on; a row that is too short is filled up with
spaces. -/
def put (row : Row) (column : Nat) (cells : Row) : Row :=
  if cells.isEmpty then row
  else
    row.take column ++ spaces (column - row.length) ++ cells ++ row.drop (column + cells.length)

/-- The row with the cells from one column up to another left out, if it reaches that far. -/
def leaveOut (row : Row) (start stop : Nat) : Row :=
  if row.length < start || row.length < stop then row else row.take start ++ dots ++ row.drop stop

/-- The rows of a text after a head; all its lines but the first stand below the first one. -/
def hanging (head : Row) (ink : Ink) (text : List Char) : List Row :=
  match Text.pieces '\n' text with
  | [] => [head]
  | first :: rest =>
    (head ++ ofChars ink first) :: rest.map fun line => spaces head.length ++ ofChars ink line

end Row

/-- The terminal codes of the inks; the plain ink of a palette has none. -/
abbrev Palette := Ink → String

/-- The palette without terminal codes. -/
def Palette.plain : Palette := fun _ => ""

/-- The code that ends an ink. -/
def endCode : String := "\x1b[0m"

namespace Row

/-- The characters of cells that follow a cell whose ink has a given code. -/
def renderAfter (palette : Palette) (code : String) : Row → List Char
  | [] => if code.isEmpty then [] else endCode.toList
  | cell :: cells =>
    let next := palette cell.ink
    let change :=
      if next = code then []
      else (if code.isEmpty then [] else endCode.toList) ++ next.toList
    change ++ cell.char :: renderAfter palette next cells

/-- The text of a row. -/
def render (palette : Palette) (row : Row) : String :=
  String.ofList (row.renderAfter palette "")

end Row

end ServiceBindings
