import Mathlib.Data.List.Basic
import ServiceBindings.Http.Request
import ServiceBindings.Proofs.Code.Lines

/-!
# Reading path expressions

The expression of the path of a request is read back: the text of a path without arguments, or a
format string with the fields that it takes its arguments from. The parts of a format string are
read with its escapes, and filled in with values one after the other.
-/

namespace ServiceBindings

open Text

/-! ### Format strings -/

/-- A part of a format string. -/
inductive FormatPart where
  | char (c : Char)
  /-- The place of an argument. -/
  | argument
  deriving DecidableEq, Repr

namespace FormatPart

/-- The parts of a format string: a doubled brace is a brace, a pair of braces is the place of an
argument, and no other brace may stand there. -/
def read? : List Char → Option (List FormatPart)
  | [] => some []
  | '\x7b' :: '\x7b' :: cs => (read? cs).map (.char '\x7b' :: ·)
  | '\x7b' :: '\x7d' :: cs => (read? cs).map (.argument :: ·)
  | '\x7d' :: '\x7d' :: cs => (read? cs).map (.char '\x7d' :: ·)
  | c :: cs => if c = '\x7b' ∨ c = '\x7d' then none else (read? cs).map (.char c :: ·)

/-- The text of parts with values for the arguments, which are used one after the other and all of
them. -/
def expand? : List FormatPart → List (List Char) → Option (List Char)
  | [], [] => some []
  | .char c :: parts, values => (expand? parts values).map (c :: ·)
  | .argument :: parts, value :: values => (expand? parts values).map (value ++ ·)
  | _, _ => none

theorem read?_escapeBrace (c : Char) (cs : List Char) :
  read? (PathPiece.escapeBrace c ++ cs) = (read? cs).map (.char c :: ·)
  := by
  by_cases hopening : c = '\x7b'
  · subst hopening
    rfl
  · by_cases hclosing : c = '\x7d'
    · subst hclosing
      rfl
    · have hplain : PathPiece.escapeBrace c = [c] := by
        simp [PathPiece.escapeBrace, hopening, hclosing]
      rw [hplain, List.singleton_append, read?.eq_5, if_neg (by simp [hopening, hclosing])]
      all_goals simp [hopening, hclosing]

end FormatPart

namespace PathPiece

/-- The parts of a format string that a piece is written as. -/
def parts : PathPiece → List FormatPart
  | text content => content.map .char
  | argument _ => [.argument]

/-- The text of a piece, given the texts of fields. -/
def value (segment : String → List Char) : PathPiece → List Char
  | text content => content
  | argument field => segment field

theorem read?_format (piece : PathPiece) (cs : List Char) :
  FormatPart.read? (piece.format ++ cs) = (FormatPart.read? cs).map (piece.parts ++ ·)
  := by
  cases piece with
  | argument field => rfl
  | text content =>
      rw [format, parts]
      induction content with
      | nil => simp
      | cons c content ih =>
          rw [List.flatMap_cons, List.append_assoc, FormatPart.read?_escapeBrace, ih,
            Option.map_map]
          rfl

/-- The format string of pieces has their parts. -/
theorem read?_flatMap_format (pieces : List PathPiece) :
  FormatPart.read? (pieces.flatMap format) = some (pieces.flatMap parts)
  := by
  induction pieces with
  | nil => rfl
  | cons piece pieces ih => rw [List.flatMap_cons, read?_format, ih, List.flatMap_cons]; rfl

/-- A format string has as many places of arguments as there are fields. -/
theorem count_parts (pieces : List PathPiece) :
  (pieces.flatMap parts).count .argument = (pieces.filterMap field?).length
  := by
  induction pieces with
  | nil => rfl
  | cons piece pieces ih =>
      rw [List.flatMap_cons, List.count_append, ih]
      cases piece with
      | text content =>
          have hnone : (content.map FormatPart.char).count .argument = 0 := by
            simp [List.count_eq_zero]
          rw [parts, hnone, Nat.zero_add]
          rfl
      | argument field =>
          rw [parts, List.count_singleton_self, Nat.add_comm]
          rfl

theorem expand?_parts (piece : PathPiece) (segment : String → List Char)
    (others : List FormatPart) (values : List (List Char)) :
  FormatPart.expand? (piece.parts ++ others) ((piece.field?.toList.map segment) ++ values)
    = (FormatPart.expand? others values).map (piece.value segment ++ ·)
  := by
  cases piece with
  | argument field => rfl
  | text content =>
      change FormatPart.expand? (content.map .char ++ others) values = _
      rw [value]
      induction content with
      | nil => simp
      | cons c content ih =>
          rw [List.map_cons, List.cons_append, FormatPart.expand?, ih, Option.map_map]
          rfl

/-- The format string of pieces is expanded to their texts. -/
theorem expand?_flatMap_parts (pieces : List PathPiece) (segment : String → List Char) :
  FormatPart.expand? (pieces.flatMap parts) ((pieces.filterMap field?).map segment)
    = some (pieces.flatMap (value segment))
  := by
  induction pieces with
  | nil => rfl
  | cons piece pieces ih =>
      have hvalues : ((piece :: pieces).filterMap field?).map segment
          = piece.field?.toList.map segment ++ (pieces.filterMap field?).map segment := by
        cases piece <;> rfl
      rw [hvalues, List.flatMap_cons, expand?_parts, ih, List.flatMap_cons]
      rfl

/-- Without fields, the pieces are their texts. -/
theorem plain_eq_value {pieces : List PathPiece} (h : pieces.filterMap field? = [])
    (segment : String → List Char) :
  pieces.flatMap plain = pieces.flatMap (value segment)
  := by
  apply List.flatMap_congr
  intro piece hpiece
  cases piece with
  | text content => rfl
  | argument field => cases List.filterMap_eq_nil_iff.mp h _ hpiece

end PathPiece

/-! ### The expression of a path -/

/-- An expression for a path. -/
inductive PathExpression where
  | plain (text : List Char)
  /-- A format string with the fields that give its arguments. -/
  | format (template : List Char) (fields : List String)
  deriving DecidableEq, Repr

namespace PathExpression

/-- What stands before the field of an argument. -/
def argumentStart (client : String) : String :=
  ", " ++ client ++ "::path_segment(&parameters."

/-- The fields of a number of arguments, up to the end of the call.  A field has no blank in it. -/
def readFields? (client : String) : Nat → String → Option (List String)
  | 0, text => if text = ")" then some [] else none
  | n + 1, text =>
    (after? (argumentStart client) text).bind fun rest =>
      let word := rest.toList.takeWhile (· ≠ ' ')
      (before? ")?" (String.ofList word.dropLast)).bind fun field =>
        (after? (field ++ ")?") rest).bind fun others =>
          (readFields? client n others).map (field :: ·)

/-- The expression that a text is. -/
def read? (client text : String) : Option PathExpression :=
  match after? "String::from(" text with
  | some rest => (readQuoted? rest).bind fun (content, ending) =>
    if ending = ")" then some (.plain content.toList) else none
  | none => do
    let (template, arguments) ← readQuoted? (← after? "format!(" text)
    let parts ← FormatPart.read? template.toList
    let fields ← readFields? client (parts.count .argument) arguments
    return .format template.toList fields

/-- The expression of the path of pieces. -/
def ofPieces (pieces : List PathPiece) : PathExpression :=
  if pieces.filterMap PathPiece.field? = [] then .plain (pieces.flatMap PathPiece.plain)
  else .format (pieces.flatMap PathPiece.format) (pieces.filterMap PathPiece.field?)

theorem ofPieces_of_nil {pieces : List PathPiece} (h : pieces.filterMap PathPiece.field? = []) :
  ofPieces pieces = .plain (pieces.flatMap PathPiece.plain) :=
  if_pos h

theorem ofPieces_of_ne_nil {pieces : List PathPiece} (h : pieces.filterMap PathPiece.field? ≠ []) :
  ofPieces pieces
    = .format (pieces.flatMap PathPiece.format) (pieces.filterMap PathPiece.field?) :=
  if_neg h

/-- The arguments of a call after its first one, with its end. -/
def argumentsText (client : String) (fields : List String) : String :=
  String.join (fields.map fun field => argumentStart client ++ field ++ ")?") ++ ")"

/-- What comes after an argument starts with a character and then a blank, if anything. -/
theorem exists_argumentsText (client : String) (fields : List String) :
  ∃ c rest, (argumentsText client fields).toList = c :: rest ∧ c ≠ ' '
    ∧ rest.takeWhile (· ≠ ' ') = []
  := by
  cases fields with
  | nil => exact ⟨')', [], by simp [argumentsText], by decide, rfl⟩
  | cons field fields =>
      have hcomma : ∃ rest, argumentsText client (field :: fields) = ", " ++ rest := by
        simp only [argumentsText, argumentStart, List.map_cons, String.join_cons,
          String.append_assoc]
        exact ⟨_, rfl⟩
      obtain ⟨rest, hrest⟩ := hcomma
      exact ⟨',', ' ' :: rest.toList, by rw [hrest, String.toList_append]; rfl, by decide, rfl⟩

/-- The fields of arguments are read back. -/
theorem readFields?_argumentsText (client : String) {fields : List String}
    (h : ∀ field ∈ fields, ' ' ∉ field.toList) :
  readFields? client fields.length (argumentsText client fields) = some fields
  := by
  induction fields with
  | nil => rfl
  | cons field fields ih =>
      obtain ⟨hfield, hfields⟩ := List.forall_mem_cons.mp h
      obtain ⟨c, rest, htext, hc, hrest⟩ := exists_argumentsText client fields
      have hsplit : argumentsText client (field :: fields)
          = argumentStart client ++ (field ++ ")?" ++ argumentsText client fields) := by
        simp only [argumentsText, List.map_cons, String.join_cons, String.append_assoc]
      have hblank : ∀ x ∈ field.toList ++ [')', '?'], decide (x ≠ ' ') = true := by
        intro x hx
        apply decide_eq_true
        rintro rfl
        rcases List.mem_append.mp hx with hx | hx
        · apply hfield hx
        · revert hx
          decide
      have hword : (field ++ ")?" ++ argumentsText client fields).toList.takeWhile (· ≠ ' ')
          = (field.toList ++ [')', '?']) ++ [c] := by
        rw [String.toList_append, String.toList_append, htext]
        change List.takeWhile _ ((field.toList ++ [')', '?']) ++ c :: rest) = _
        rw [List.takeWhile_append_of_pos hblank, List.takeWhile_cons_of_pos (by simpa using hc),
          hrest]
      have hstripped : String.ofList (field.toList ++ [')', '?']) = field ++ ")?" := by
        rw [String.ofList_append, String.ofList_toList]
      rw [List.length_cons, readFields?, hsplit, after?_append, Option.bind_some]
      dsimp only
      rw [hword, List.dropLast_concat, hstripped, before?_append, Option.bind_some, after?_append,
        Option.bind_some, ih hfields, Option.map_some]

/-- The expression of a path is read back if its fields have no blanks. -/
theorem read?_pathExpression (client : String) {pieces : List PathPiece}
    (h : ∀ field ∈ pieces.filterMap PathPiece.field?, ' ' ∉ field.toList) :
  read? client (Endpoint.pathExpression client pieces) = some (ofPieces pieces)
  := by
  unfold Endpoint.pathExpression
  dsimp only
  by_cases hfields : pieces.filterMap PathPiece.field? = []
  · rw [if_pos (by simp [hfields]), ofPieces_of_nil hfields, read?, String.append_assoc,
      after?_append]
    dsimp only
    rw [readQuoted?_ofList, Option.bind_some, if_pos rfl, String.toList_ofList]
  · have harguments : ", " ++ (Code.commaSeparated ((pieces.filterMap PathPiece.field?).map
          fun field => client ++ ("::path_segment(&parameters." ++ (field ++ ")?"))) ++ ")")
        = argumentsText client (pieces.filterMap PathPiece.field?) := by
      rw [← String.append_assoc, Code.comma_append_commaSeparated (by simpa using hfields),
        List.map_map, argumentsText]
      simp only [Function.comp_def, argumentStart, String.append_assoc]
    rw [if_neg (by simpa using hfields), ofPieces_of_ne_nil hfields, read?]
    simp only [String.append_assoc, harguments]
    rw [after?_append_of_clash (by decide), after?_append]
    change Option.bind (readQuoted? _) _ = _
    rw [readQuoted?_ofList, Option.bind_some]
    dsimp only
    rw [String.toList_ofList, PathPiece.read?_flatMap_format]
    change Option.bind (readFields? _ _ _) _ = _
    rw [PathPiece.count_parts, readFields?_argumentsText client h]
    rfl

end PathExpression

end ServiceBindings
