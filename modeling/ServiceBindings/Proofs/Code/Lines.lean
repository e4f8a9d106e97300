import ServiceBindings.Code.Lines
import ServiceBindings.Proofs.Text.Lines
import ServiceBindings.Proofs.Text.Reading

/-!
# Reading blocks

A block of lines is read back: its head, and the lines in it without the level that they got.  So
are sections, each of which is a line with lines one level deeper after it.  A field is read from
its line by what stands in front of the first colon.
-/

namespace ServiceBindings.Code

open Text

/-- A line one level up. -/
def unindentLine? (line : String) : Option String :=
  if line.isEmpty then some line else after? "    " line

/-- Lines one level up. -/
def unindent? (lines : List String) : Option (List String) :=
  lines.mapM unindentLine?

/-- The head of a block and the lines in it. -/
def readBlock? : List String → Option (String × List String)
  | [] => none
  | first :: rest =>
    if rest.getLast? = some "\x7d" then
      (before? " \x7b" first).bind fun head =>
        (unindent? rest.dropLast).map fun body => (head, body)
    else none

/-- Lines that are not empty all get one level deeper. -/
theorem indent_eq_map {lines : List String} (h : ∀ line ∈ lines, line ≠ "") :
  indent lines = lines.map ("    " ++ ·)
  := by
  apply List.map_congr_left
  intro line hline
  rw [if_neg]
  rw [String.isEmpty_iff]
  apply h line hline

theorem indent_map {α : Type} {line : α → String} (h : ∀ a, line a ≠ "") (items : List α) :
  indent (items.map line) = items.map fun a => "    " ++ line a
  := by
  rw [indent_eq_map, List.map_map]
  · rfl
  · intro text htext
    obtain ⟨a, -, rfl⟩ := List.mem_map.mp htext
    apply h a

theorem mem_indent {line : String} {lines : List String} (h : line ∈ lines) (hne : line ≠ "") :
  "    " ++ line ∈ indent lines
  := by
  rw [indent, List.mem_map]
  use line, h
  rw [if_neg (by simpa using hne)]

theorem unindentLine?_indent (line : String) :
  unindentLine? (if line.isEmpty then line else "    " ++ line) = some line
  := by
  by_cases hempty : line.isEmpty = true
  · rw [if_pos hempty, unindentLine?, if_pos hempty]
  · rw [if_neg hempty, unindentLine?, if_neg (by simp), after?_append]

/-- A line that does not start with blanks is one level deeper than none. -/
theorem unindentLine?_of_clash {start : String} (h : clash "    " start = true) (rest : String) :
  unindentLine? (start ++ rest) = none
  := by
  have hne : (start ++ rest).isEmpty = false := by
    rw [← Bool.not_eq_true, String.isEmpty_iff, String.append_eq_empty_iff]
    rintro ⟨rfl, -⟩
    revert h
    decide
  rw [unindentLine?, hne, if_neg Bool.false_ne_true, after?_append_of_clash h]

/-- Lines are found again one level up. -/
theorem unindent?_indent (lines : List String) : unindent? (indent lines) = some lines := by
  induction lines with
  | nil => rfl
  | cons line lines ih =>
      rw [unindent?] at ih
      rw [indent, List.map_cons, unindent?, List.mapM_cons, unindentLine?_indent, ← indent, ih]
      rfl

/-- A block is read back. -/
theorem readBlock?_block (head : String) (body : List String) :
  readBlock? (block head body) = some (head, body)
  := by
  rw [block, List.cons_append, readBlock?, List.getLast?_concat, if_pos rfl, before?_append,
    List.dropLast_concat, unindent?_indent]
  rfl

/-- Lines one level deeper are one line each if they were. -/
theorem isLine_indent {lines : List String} (h : ∀ line ∈ lines, IsLine line) :
  ∀ line ∈ indent lines, IsLine line
  := by
  intro text htext
  obtain ⟨line, hline, rfl⟩ := List.mem_map.mp htext
  split
  case isTrue => apply h line hline
  case isFalse hempty =>
    apply isLine_append (by decide) (h line hline)
    rwa [Ne, ← String.isEmpty_iff]

/-! ### Blocks with bounds -/

/-- The head of a block, the bounds of its type parameters, and the lines in it. -/
def readBoundedBlock? : List String → Option (String × List String × List String)
  | head :: second :: rest =>
    if second = "where" ∧ rest.getLast? = some "\x7d" then
      (unindent? (rest.takeWhile (· ≠ "\x7b"))).bind fun bounds =>
        (unindent? (rest.dropWhile (· ≠ "\x7b")).tail.dropLast).map fun body => (head, bounds, body)
    else none
  | _ => none

/-- A block with bounds is read back. -/
theorem readBoundedBlock?_boundedBlock (head : String) (bounds body : List String) :
  readBoundedBlock? (boundedBlock head bounds body) = some (head, bounds, body)
  := by
  have hopen : ∀ line ∈ indent bounds, decide (line ≠ "\x7b") = true := by
    intro text htext
    obtain ⟨line, -, rfl⟩ := List.mem_map.mp htext
    apply decide_eq_true
    split
    case isTrue hempty =>
      rw [String.isEmpty_iff.mp hempty]
      decide
    case isFalse => apply append_ne_of_clash (by decide)
  have hclosing : (indent bounds ++ "\x7b" :: indent body ++ ["\x7d"]).getLast? = some "\x7d" :=
    List.getLast?_concat
  have hinside : (indent bounds ++ "\x7b" :: indent body ++ ["\x7d"]).takeWhile (· ≠ "\x7b")
      = indent bounds := by
    rw [List.append_assoc, List.takeWhile_append_of_pos hopen, List.cons_append,
      List.takeWhile_cons_of_neg (by simp), List.append_nil]
  have hafter : (indent bounds ++ "\x7b" :: indent body ++ ["\x7d"]).dropWhile (· ≠ "\x7b")
      = "\x7b" :: (indent body ++ ["\x7d"]) := by
    rw [List.append_assoc, List.dropWhile_append_of_pos hopen, List.cons_append,
      List.dropWhile_cons_of_neg (by simp)]
  have hlines : boundedBlock head bounds body
      = head :: "where" :: (indent bounds ++ "\x7b" :: indent body ++ ["\x7d"]) := rfl
  rw [hlines, readBoundedBlock?, if_pos ⟨rfl, hclosing⟩, hinside, hafter,
    List.tail_cons, List.dropLast_concat, unindent?_indent, unindent?_indent]
  rfl

theorem isLine_boundedBlock {head : String} {bounds body : List String} (hhead : IsLine head)
    (hbounds : ∀ line ∈ bounds, IsLine line) (hbody : ∀ line ∈ body, IsLine line) :
  ∀ line ∈ boundedBlock head bounds body, IsLine line
  := by
  rw [boundedBlock]
  simp only [List.cons_append, List.append_assoc, List.forall_mem_cons, List.forall_mem_append]
  exact ⟨hhead, by decide, isLine_indent hbounds, by decide, isLine_indent hbody, by decide⟩

/-! ### Documentation -/

/-- Whether a line is documentation. -/
def IsDoc (line : String) : Prop :=
  ∃ text, line = "///" ++ text

theorem isDoc_docComment (doc : Option String) : ∀ line ∈ docComment doc, IsDoc line := by
  intro line hline
  cases doc with
  | none => cases hline
  | some doc =>
      obtain ⟨text, -, rfl⟩ := List.mem_map.mp hline
      unfold docLine
      split
      case isTrue => exact ⟨"", rfl⟩
      case isFalse => exact ⟨_, String.append_assoc⟩

/-- What is trimmed at its end does not end with a carriage return. -/
theorem getLast?_trimEnd_ne (cs : List Char) : (trimEnd cs).getLast? ≠ some '\r' := by
  rw [trimEnd, List.getLast?_reverse]
  intro hhead
  have hblank := List.head?_dropWhile_not isBlank cs.reverse
  rw [hhead] at hblank
  revert hblank
  decide

/-- The documentation of a declaration has one line for each of its lines. -/
theorem isLine_docComment (doc : Option String) : ∀ line ∈ docComment doc, IsLine line := by
  intro line hline
  cases doc with
  | none => cases hline
  | some doc =>
      obtain ⟨text, htext, rfl⟩ := List.mem_map.mp hline
      unfold docLine
      split
      case isTrue => decide
      case isFalse hne =>
        apply isLine_append (by decide)
        · constructor <;> rw [String.toList_ofList]
          · intro hmem
            apply feed_not_mem_of_mem_lines htext
            rw [trimEnd, List.mem_reverse] at hmem
            rw [← List.mem_reverse]
            apply (List.dropWhile_sublist _).mem hmem
          · apply getLast?_trimEnd_ne
        · rwa [Ne, ← String.isEmpty_iff]

/-! ### Fields -/

/-- The name in front of the first colon of a text. -/
def readFieldName? (text : String) : Option String :=
  let name := String.ofList (text.toList.takeWhile (· ≠ ':'))
  (after? (name ++ ": ") text).map fun _ => name

theorem readFieldName?_append {name : String} (h : ':' ∉ name.toList) (rest : String) :
  readFieldName? (name ++ ": " ++ rest) = some name
  := by
  have hname : (name ++ ": " ++ rest).toList.takeWhile (· ≠ ':') = name.toList := by
    rw [String.append_assoc, String.toList_append, List.takeWhile_append_of_pos]
    · simp
    · intro c hc
      apply decide_eq_true
      rintro rfl
      apply h hc
  rw [readFieldName?, hname, String.ofList_toList, after?_append, Option.map_some]

/-! ### Sections -/

/-- Lines, each followed by lines one level deeper. -/
def ofSections (sections : List (String × List String)) : List String :=
  sections.flatMap fun (head, body) => head :: indent body

/-- The lines that come first one level deeper, and the sections after them. -/
def splitSections : List String → List String × List (String × List String)
  | [] => ([], [])
  | line :: rest =>
    let (body, sections) := splitSections rest
    match unindentLine? line with
    | some inner => (inner :: body, sections)
    | none => ([], (line, body) :: sections)

/-- The sections that lines consist of. -/
def readSections? (lines : List String) : Option (List (String × List String)) :=
  let (body, sections) := splitSections lines
  if body.isEmpty then some sections else none

theorem splitSections_indent (body rest : List String) :
  splitSections (indent body ++ rest)
    = (body ++ (splitSections rest).1, (splitSections rest).2)
  := by
  induction body with
  | nil => rfl
  | cons line body ih =>
      rw [indent] at ih
      rw [indent, List.map_cons, List.cons_append, splitSections, ih, unindentLine?_indent]
      rfl

theorem splitSections_ofSections {sections : List (String × List String)}
    (h : ∀ part ∈ sections, unindentLine? part.1 = none) :
  splitSections (ofSections sections) = ([], sections)
  := by
  induction sections with
  | nil => rfl
  | cons part sections ih =>
      obtain ⟨hpart, hsections⟩ := List.forall_mem_cons.mp h
      have hlines : ofSections (part :: sections)
          = part.1 :: (indent part.2 ++ ofSections sections) := rfl
      rw [hlines, splitSections, splitSections_indent, ih hsections, hpart, List.append_nil]

/-- Sections are read back. -/
theorem readSections?_ofSections {sections : List (String × List String)}
    (h : ∀ part ∈ sections, unindentLine? part.1 = none) :
  readSections? (ofSections sections) = some sections
  := by
  rw [readSections?, splitSections_ofSections h]
  rfl

theorem isLine_ofSections_cons {head : String} {body : List String}
    {rest : List (String × List String)} (hhead : IsLine head) (hbody : ∀ line ∈ body, IsLine line)
    (hrest : ∀ line ∈ ofSections rest, IsLine line) :
  ∀ line ∈ ofSections ((head, body) :: rest), IsLine line
  := by
  have hlines : ofSections ((head, body) :: rest) = head :: (indent body ++ ofSections rest) := rfl
  rw [hlines, List.forall_mem_cons, List.forall_mem_append]
  exact ⟨hhead, isLine_indent hbody, hrest⟩

theorem isLine_block {head : String} {body : List String} (hhead : '\n' ∉ head.toList)
    (hbody : ∀ line ∈ body, IsLine line) :
  ∀ line ∈ block head body, IsLine line
  := by
  rw [block, List.cons_append, List.forall_mem_cons, List.forall_mem_append]
  exact ⟨isLine_append hhead (by decide) (by decide), isLine_indent hbody, by decide⟩

/-- The lines in a section are fewer than all lines. -/
theorem length_lt_ofSections {sections : List (String × List String)}
    {part : String × List String} (h : part ∈ sections) :
  part.2.length < (ofSections sections).length
  := by
  have hlength : (part.1 :: indent part.2).length ≤ (ofSections sections).length := by
    apply List.Sublist.length_le
    apply List.sublist_flatten_of_mem
    apply List.mem_map_of_mem h
  rw [List.length_cons, indent, List.length_map] at hlength
  apply hlength

/-! ### Groups -/

/-- Each group stands in the groups with empty lines between them. -/
theorem isInfix_separated {groups : List (List String)} {group : List String} (h : group ∈ groups) :
  group <:+: separated groups
  := by
  induction groups using separated.induct with
  | case1 => cases h
  | case2 other =>
      obtain rfl := List.mem_singleton.mp h
      apply List.infix_refl
  | case3 other groups hne ih =>
      rw [separated]
      · rcases List.mem_cons.mp h with rfl | h
        · apply (List.prefix_append group _).isInfix
        · apply (ih h).trans
          apply List.IsSuffix.isInfix
          apply (List.suffix_cons "" _).trans (List.suffix_append _ _)
      · exact hne

/-- The lines in a block stand in it. -/
theorem isInfix_boundedBlock (head : String) (bounds body : List String) :
  indent body <:+: boundedBlock head bounds body :=
  ⟨head :: "where" :: indent bounds ++ ["\x7b"], ["\x7d"], by simp [boundedBlock]⟩

theorem feed_not_mem_join {texts : List String} (h : ∀ text ∈ texts, '\n' ∉ text.toList) :
  '\n' ∉ (String.join texts).toList
  := by
  simpa using h

theorem feed_not_mem_commaSeparated {texts : List String} (h : ∀ text ∈ texts, '\n' ∉ text.toList) :
  '\n' ∉ (commaSeparated texts).toList
  := by
  rw [commaSeparated, String.toList_intercalate]
  intro hmem
  rcases mem_of_mem_intercalate hmem with hmem | ⟨part, hpart, hmem⟩
  · revert hmem
    decide
  · obtain ⟨text, htext, rfl⟩ := List.mem_map.mp hpart
    apply h text htext hmem

/-- Texts with commas between them, after another comma. -/
theorem comma_append_commaSeparated {texts : List String} (h : texts ≠ []) :
  ", " ++ commaSeparated texts = String.join (texts.map (", " ++ ·))
  := by
  induction texts with
  | nil => apply absurd rfl h
  | cons text rest ih =>
      cases rest with
      | nil => simp [commaSeparated]
      | cons next rest =>
          rw [commaSeparated, String.intercalate_cons_cons, ← commaSeparated, List.map_cons,
            String.join_cons, ← ih (by simp)]
          simp only [String.append_assoc]

end ServiceBindings.Code
