import Mathlib.Data.List.Basic
import ServiceBindings.Json.Reader
import ServiceBindings.Text.Quoted

/-!
# Reading texts

A text is read by taking away what it starts or ends with, and by reading the string literals in it.
Every text is read back from its literal, whatever stands after the literal.
-/

namespace ServiceBindings.Text

/-! ### Starts and ends -/

/-- What comes after the start of a text. -/
def after? (start text : String) : Option String :=
  (start.toList.isPrefixOf? text.toList).map String.ofList

/-- What comes before the end of a text. -/
def before? (ending text : String) : Option String :=
  (ending.toList.isSuffixOf? text.toList).map String.ofList

/-- Whether two texts have different characters somewhere. -/
def clash (first second : String) : Bool :=
  (first.toList.zip second.toList).any fun (a, b) => a != b

theorem isPrefixOf?_append_eq_none {start text : List Char}
    (h : (start.zip text).any (fun (a, b) => a != b) = true) (rest : List Char) :
  start.isPrefixOf? (text ++ rest) = none
  := by
  induction start generalizing text with
  | nil => cases h
  | cons c start ih =>
      cases text with
      | nil => cases h
      | cons other text =>
          rw [List.cons_append, List.isPrefixOf?]
          split
          case isTrue hc =>
            apply ih
            simpa [beq_iff_eq.mp hc] using h
          case isFalse => rfl

@[simp] theorem after?_append (start rest : String) : after? start (start ++ rest) = some rest := by
  rw [after?, List.isPrefixOf?_eq_some_iff_append_eq.mpr String.toList_append.symm, Option.map_some,
    String.ofList_toList]

@[simp] theorem before?_append (ending text : String) :
  before? ending (text ++ ending) = some text
  := by
  rw [before?, List.isSuffixOf?_eq_some_iff_append_eq.mpr String.toList_append.symm,
    Option.map_some, String.ofList_toList]

/-- A text that differs somewhere from what one starts with is not its start. -/
theorem after?_append_of_clash {start text : String} (h : clash start text = true)
    (rest : String) :
  after? start (text ++ rest) = none
  := by
  rw [after?, String.toList_append, isPrefixOf?_append_eq_none h, Option.map_none]

/-- A text that differs somewhere from what one starts with is another one. -/
theorem append_ne_of_clash {start text : String} (h : clash start text = true) (rest : String) :
  start ++ rest ≠ text
  := by
  rintro rfl
  have hnone := after?_append_of_clash h ""
  rw [String.append_empty, after?_append] at hnone
  cases hnone

/-- A text that differs somewhere, from the end, from what one ends with is not its end. -/
theorem before?_append_of_clash {ending text : String}
    (h : (ending.toList.reverse.zip text.toList.reverse).any (fun (a, b) => a != b) = true)
    (rest : String) :
  before? ending (rest ++ text) = none
  := by
  rw [before?, List.isSuffixOf?, String.toList_append, List.reverse_append,
    isPrefixOf?_append_eq_none h, Option.map_none, Option.map_none]

/-! ### String literals -/

/-- Where a reader stands in a string literal. -/
inductive LiteralState where
  | plain
  /-- After a backslash. -/
  | escaped
  /-- In front of the number of a character. -/
  | numbered
  /-- In the number of a character. -/
  | digits (n : Nat)
  deriving DecidableEq, Repr

/-- The character that a letter after a backslash stands for. -/
def unescape? : Char → Option Char
  | '"' => some '"'
  | '\\' => some '\\'
  | 'n' => some '\n'
  | 'r' => some '\r'
  | 't' => some '\t'
  | '0' => some '\x00'
  | _ => none

/-- The text of a string literal after its opening quote, with what comes after the literal. -/
def readLiteral? : LiteralState → List Char → Option (List Char × List Char)
  | _, [] => none
  | .plain, c :: cs =>
    if c = '"' then some ([], cs)
    else if c = '\\' then readLiteral? .escaped cs
    else (readLiteral? .plain cs).map fun (text, rest) => (c :: text, rest)
  | .escaped, c :: cs =>
    if c = 'u' then readLiteral? .numbered cs
    else
      (unescape? c).bind fun x =>
        (readLiteral? .plain cs).map fun (text, rest) => (x :: text, rest)
  | .numbered, c :: cs => if c = '\x7b' then readLiteral? (.digits 0) cs else none
  | .digits n, c :: cs =>
    if c = '\x7d' then
      if n.isValidChar then
        (readLiteral? .plain cs).map fun (text, rest) => (Char.ofNat n :: text, rest)
      else none
    else (Json.hexValue c).bind fun value => readLiteral? (.digits (n * 16 + value)) cs

/-- The text of a string literal, with what comes after the literal. -/
def readQuoted? (text : String) : Option (String × String) :=
  match text.toList with
  | '"' :: cs =>
    (readLiteral? .plain cs).map fun (content, rest) => (String.ofList content, String.ofList rest)
  | _ => none

theorem readLiteral?_digit (n : Nat) {value : Nat} (h : value < 16) (cs : List Char) :
  readLiteral? (.digits n) (Nat.digitChar value :: cs) = readLiteral? (.digits (n * 16 + value)) cs
  := by
  have hall : ∀ value < 16, Nat.digitChar value ≠ '\x7d'
      ∧ Json.hexValue (Nat.digitChar value) = some value := by
    decide
  obtain ⟨hbrace, hvalue⟩ := hall value h
  rw [readLiteral?, if_neg hbrace, hvalue, Option.bind_some]

/-- The digits of a number are read as that number. -/
theorem readLiteral?_toDigits (n : Nat) (cs : List Char) :
  readLiteral? (.digits 0) (Nat.toDigits 16 n ++ cs) = readLiteral? (.digits n) cs
  := by
  induction n using Nat.strongRecOn generalizing cs with
  | ind n ih =>
      rw [Nat.toDigits_eq_if (by decide)]
      split
      case isTrue hsmall =>
        rw [List.singleton_append, readLiteral?_digit 0 hsmall, Nat.zero_mul, Nat.zero_add]
      case isFalse hlarge =>
        rw [List.append_assoc, ih (n / 16) (by omega), List.singleton_append,
          readLiteral?_digit _ (Nat.mod_lt n (by decide)), Nat.div_add_mod']

/-- A character is read back from how it stands in a literal. -/
theorem readLiteral?_quotedChar (c : Char) (cs : List Char) :
  readLiteral? .plain (quotedChar c ++ cs)
    = (readLiteral? .plain cs).map fun (text, rest) => (c :: text, rest)
  := by
  unfold quotedChar
  split
  case isTrue h => subst h; rfl
  split
  case isTrue h => subst h; rfl
  split
  case isTrue h => subst h; rfl
  split
  case isTrue h => subst h; rfl
  split
  case isTrue h => subst h; rfl
  split
  case isTrue h =>
    obtain rfl : c = '\x00' := by
      rw [← Char.ofNat_toNat c, h]
    rfl
  split
  case isTrue =>
    have hvalid : c.toNat.isValidChar := c.valid
    rw [List.append_assoc, List.append_assoc, List.cons_append, readLiteral?, if_neg (by decide),
      if_pos rfl, List.cons_append, readLiteral?, if_pos rfl, List.cons_append, readLiteral?,
      if_pos rfl, List.nil_append, readLiteral?_toDigits, List.singleton_append, readLiteral?,
      if_pos rfl, if_pos hvalid, Char.ofNat_toNat]
  case isFalse hquote hslash _ _ _ _ _ =>
    rw [List.singleton_append, readLiteral?, if_neg hquote, if_neg hslash]

theorem readLiteral?_flatMap_quotedChar (text rest : List Char) :
  readLiteral? .plain (text.flatMap quotedChar ++ '"' :: rest) = some (text, rest)
  := by
  induction text with
  | nil => rfl
  | cons c text ih =>
      rw [List.flatMap_cons, List.append_assoc, readLiteral?_quotedChar, ih]
      rfl

/-- A text is read back from its literal. -/
theorem readQuoted?_ofList (text : List Char) (rest : String) :
  readQuoted? (String.ofList (quotedChars text) ++ rest) = some (String.ofList text, rest)
  := by
  have hliteral : (String.ofList (quotedChars text) ++ rest).toList
      = '"' :: (text.flatMap quotedChar ++ '"' :: rest.toList) := by
    simp [quotedChars]
  rw [readQuoted?, hliteral]
  change Option.map _ (readLiteral? .plain (text.flatMap quotedChar ++ '"' :: rest.toList)) = _
  simp [readLiteral?_flatMap_quotedChar]

@[simp] theorem readQuoted?_quoted (text rest : String) :
  readQuoted? (quoted text ++ rest) = some (text, rest)
  := by
  rw [quoted, readQuoted?_ofList, String.ofList_toList]

theorem feed_not_mem_toDigits (n : Nat) : '\n' ∉ Nat.toDigits 16 n := by
  have hdigit : ∀ value < 16, '\n' ≠ Nat.digitChar value := by decide
  induction n using Nat.strongRecOn with
  | ind n ih =>
      rw [Nat.toDigits_eq_if (by decide)]
      split
      case isTrue hsmall =>
        rw [List.mem_singleton]
        apply hdigit n hsmall
      case isFalse hlarge =>
        rw [List.mem_append, List.mem_singleton, not_or]
        exact ⟨ih (n / 16) (by omega), hdigit _ (Nat.mod_lt n (by decide))⟩

/-- A line feed is escaped in a literal. -/
theorem feed_not_mem_quotedChar (c : Char) : '\n' ∉ quotedChar c := by
  unfold quotedChar
  split
  case isTrue => decide
  split
  case isTrue => decide
  split
  case isTrue => decide
  split
  case isTrue => decide
  split
  case isTrue => decide
  split
  case isTrue => decide
  split
  case isTrue => simp [feed_not_mem_toDigits]
  case isFalse hfeed _ _ _ _ =>
    rw [List.mem_singleton]
    apply Ne.symm hfeed

theorem feed_not_mem_quotedChars (cs : List Char) : '\n' ∉ quotedChars cs := by
  simp [quotedChars, feed_not_mem_quotedChar]

theorem feed_not_mem_quoted (text : String) : '\n' ∉ (quoted text).toList := by
  rw [quoted, String.toList_ofList]
  apply feed_not_mem_quotedChars

/-- The text of the string literal between a start and an end. -/
def literalBetween? (start ending text : String) : Option String :=
  (after? start text).bind fun rest =>
    (readQuoted? rest).bind fun (content, tail) => if tail = ending then some content else none

theorem literalBetween?_append (start ending content : String) :
  literalBetween? start ending (start ++ quoted content ++ ending) = some content
  := by
  rw [literalBetween?, String.append_assoc, after?_append, Option.bind_some, readQuoted?_quoted,
    Option.bind_some]
  apply if_pos rfl

theorem literalBetween?_of_clash {start text : String} (h : clash start text = true)
    (ending rest : String) :
  literalBetween? start ending (text ++ rest) = none
  := by
  rw [literalBetween?, after?_append_of_clash h, Option.bind_none]

end ServiceBindings.Text
