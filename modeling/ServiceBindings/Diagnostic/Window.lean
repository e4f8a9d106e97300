import ServiceBindings.Text.Width

/-!
# Windows

A line that is too long for the terminal is shown through a window that keeps the marked place in
sight. If only blanks have to go, the line is cut behind them; else the window is laid around the
place and its label, around the place alone, or, if that is still too long, it is as long as the
place.
-/

namespace ServiceBindings.Snippet

/-- The columns of a line that a window is chosen by. -/
structure Extent where
  /-- The blanks that the line starts with, up to the marked place. -/
  blanks : Nat
  /-- The first column of the marked place. -/
  start : Nat
  /-- The column after the marked place. -/
  stop : Nat
  /-- The column after the label of the place. -/
  labelStop : Nat
  /-- The columns of the line. -/
  width : Nat
  deriving DecidableEq, Repr

/-- The columns from a first one up to another that are shown, and the room there is for them. -/
structure Window where
  start : Nat
  stop : Nat
  room : Nat
  deriving DecidableEq, Repr

namespace Window

/-- The columns kept free next to what is shown, for the dots. -/
def padding : Nat := 6

/-- The blanks that a line may start with before they are cut. -/
def longBlanks : Nat := 20

/-- The blanks that are kept when blanks are cut. -/
def keptBlanks : Nat := 16

/-- The window that starts at a column and takes all the room. -/
def filling (start room : Nat) : Window :=
  ⟨start, start + room, room⟩

/-- The window for a line. -/
def choose (extent : Extent) (room : Nat) : Window :=
  let blanks := extent.blanks - padding
  let start := extent.start - padding
  let stop := extent.stop + padding
  let labelStop := extent.labelStop + padding
  let cut := if longBlanks < blanks then blanks - keptBlanks else 0
  if extent.width - cut ≤ room then ⟨cut, max extent.width cut, room⟩
  else if labelStop - blanks ≤ room then filling blanks room
  else if labelStop - start ≤ room then
    filling (start - (room - (labelStop - start)) / 2) room
  else if stop - start ≤ room then
    filling (start - (room - (stop - start)) / 5 * 2) room
  else ⟨start, stop, room⟩

/-- The first column that is shown of a line of a given width. -/
def left (window : Window) (width : Nat) : Nat :=
  min window.start width

/-- The column after the last one that is shown of a line of a given width. -/
def right (window : Window) (width : Nat) : Nat :=
  if width - window.start ≤ window.room then width else min window.stop width

end Window

/-- Drops characters until some columns are gone: the columns dropped, and what is left. -/
def dropColumns : Nat → List Char → Nat × List Char
  | 0, cs => (0, cs)
  | _, [] => (0, [])
  | count + 1, c :: cs =>
    let (dropped, rest) := dropColumns (count + 1 - Text.columns c) cs
    (Text.columns c + dropped, rest)

/-- The longest start of a text that has room in some columns. -/
def takeColumns : Nat → List Char → List Char
  | _, [] => []
  | room, c :: cs =>
    if Text.columns c ≤ room then c :: takeColumns (room - Text.columns c) cs else []

end ServiceBindings.Snippet
