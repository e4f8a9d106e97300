/-!
# Lines and pieces

Cutting a text at separators and putting pieces together again.
-/

namespace ServiceBindings.Text

/-- The pieces of a text between the occurrences of a character. -/
def pieces (separator : Char) : List Char → List (List Char)
  | [] => [[]]
  | c :: cs =>
    if c = separator then [] :: pieces separator cs
    else
      match pieces separator cs with
      | [] => [[c]]
      | piece :: rest => (c :: piece) :: rest

/-- A piece without the carriage return it ends with. -/
def dropReturn (piece : List Char) : List Char :=
  if piece.getLast? = some '\r' then piece.dropLast else piece

/-- The lines of a text. A line feed ends a line, together with a carriage return before it; what
follows the last line feed is a line unless it is empty. -/
def lines (cs : List Char) : List (List Char) :=
  let all := pieces '\n' cs
  all.dropLast.map dropReturn ++ (all.getLast?.toList.filter fun piece => !piece.isEmpty)

/-- The lines of a text, as texts. -/
def linesOf (text : String) : List String :=
  (lines text.toList).map String.ofList

/-- Lines put together, each ended by a line feed. -/
def unlines (all : List String) : String :=
  String.join (all.map (· ++ "\n"))

/-- A text whose occurrences of a character are replaced. -/
def replaceChar (c : Char) (replacement : List Char) (cs : List Char) : List Char :=
  cs.flatMap fun x => if x = c then replacement else [x]

end ServiceBindings.Text
