import Mathlib.Data.List.Basic
import Mathlib.Tactic.Use
import ServiceBindings.Text.Lines

/-!
# Lines and their text

Lines are put together into a text, each ended by a line feed.  The text is cut into the same lines
again if each of them is one line.  Other lines may be cut into several or lose a carriage return,
but only for themselves: those that are one line are found again among them.
-/

namespace ServiceBindings.Text

/-- Whether a text is one line: it has no line feed and does not end with a carriage return. -/
structure IsLine (line : String) : Prop where
  feed : '\n' ∉ line.toList
  ending : line.toList.getLast? ≠ some '\r'

/-! ### Cutting -/

theorem pieces_ne_nil (separator : Char) (cs : List Char) : pieces separator cs ≠ [] := by
  cases cs with
  | nil => simp [pieces]
  | cons c cs =>
      rw [pieces]
      split
      case isTrue => simp
      case isFalse => split <;> simp

/-- A text is cut at a separator, whatever stands around it. -/
theorem pieces_append (separator : Char) (first second : List Char) :
  pieces separator (first ++ separator :: second)
    = pieces separator first ++ pieces separator second
  := by
  induction first with
  | nil => simp [pieces]
  | cons c first ih =>
      rw [List.cons_append, pieces, pieces, ih]
      split
      case isTrue => rfl
      case isFalse =>
        cases hpieces : pieces separator first with
        | nil => apply absurd hpieces (pieces_ne_nil separator first)
        | cons piece rest => rfl

theorem pieces_of_not_mem {separator : Char} {cs : List Char} (h : separator ∉ cs) :
  pieces separator cs = [cs]
  := by
  induction cs with
  | nil => rfl
  | cons c cs ih =>
      obtain ⟨hc, hcs⟩ := not_or.mp (List.mem_cons.not.mp h)
      rw [pieces, if_neg (Ne.symm hc), ih hcs]

theorem not_mem_of_mem_pieces {separator : Char} {cs piece : List Char}
    (h : piece ∈ pieces separator cs) :
  separator ∉ piece
  := by
  induction cs generalizing piece with
  | nil =>
      rw [pieces, List.mem_singleton] at h
      simp [h]
  | cons c cs ih =>
      rw [pieces] at h
      split at h
      case isTrue =>
        rcases List.mem_cons.mp h with rfl | h
        · apply List.not_mem_nil
        · apply ih h
      case isFalse hc =>
        cases hpieces : pieces separator cs with
        | nil => apply absurd hpieces (pieces_ne_nil separator cs)
        | cons first rest =>
            rw [hpieces] at h ih
            rcases List.mem_cons.mp h with rfl | h
            · rw [List.mem_cons, not_or]
              exact ⟨Ne.symm hc, ih List.mem_cons_self⟩
            · apply ih (List.mem_cons_of_mem _ h)

/-- A line of a text has no line feed. -/
theorem feed_not_mem_of_mem_lines {cs line : List Char} (h : line ∈ lines cs) : '\n' ∉ line := by
  rcases List.mem_append.mp h with h | h
  · obtain ⟨piece, hpiece, rfl⟩ := List.mem_map.mp h
    have hfeed := not_mem_of_mem_pieces ((List.dropLast_sublist _).mem hpiece)
    unfold dropReturn
    split
    case isTrue => apply fun hmem => hfeed ((List.dropLast_sublist _).mem hmem)
    case isFalse => apply hfeed
  · have hlast := Option.mem_toList.mp (List.mem_of_mem_filter h)
    apply not_mem_of_mem_pieces (List.mem_of_getLast? hlast)

/-- What comes before a line feed and what comes after it have their lines apart. -/
theorem lines_append (first second : List Char) :
  lines (first ++ '\n' :: second) = (pieces '\n' first).map dropReturn ++ lines second
  := by
  rw [lines, lines, pieces_append, List.dropLast_append_of_ne_nil (pieces_ne_nil '\n' second),
    List.getLast?_append_of_ne_nil _ (pieces_ne_nil '\n' second), List.map_append,
    List.append_assoc]

/-- The lines of a text that a line feed ends, with more text after it. -/
theorem linesOf_append (text rest : String) :
  linesOf (text ++ "\n" ++ rest)
    = ((pieces '\n' text.toList).map dropReturn).map String.ofList ++ linesOf rest
  := by
  have htext : (text ++ "\n" ++ rest).toList = text.toList ++ '\n' :: rest.toList := by
    simp
  rw [linesOf, htext, lines_append, List.map_append, linesOf]

/-- How a text is cut into lines.  A line feed ends a line, together with a carriage return before
it; the last line may lack it. -/
inductive IsCut : List Char → List String → Prop
  | nil : IsCut [] []
  | last {line : String} (hne : line ≠ "") (hfeed : '\n' ∉ line.toList) : IsCut line.toList [line]
  | feed {line : String} {rest : List Char} {all : List String} (hline : IsLine line)
      (hrest : IsCut rest all) :
      IsCut (line.toList ++ '\n' :: rest) (line :: all)
  | returnFeed {line : String} {rest : List Char} {all : List String} (hfeed : '\n' ∉ line.toList)
      (hrest : IsCut rest all) :
      IsCut (line.toList ++ '\r' :: '\n' :: rest) (line :: all)

theorem isCut_dropReturn {first rest : List Char} {all : List String} (hfirst : '\n' ∉ first)
    (hrest : IsCut rest all) :
  IsCut (first ++ '\n' :: rest) (String.ofList (dropReturn first) :: all)
  := by
  unfold dropReturn
  split
  case isTrue hlast =>
    have hsplit : first ++ '\n' :: rest
        = (String.ofList first.dropLast).toList ++ '\r' :: '\n' :: rest := by
      nth_rewrite 1 [← List.dropLast_append_getLast? _ hlast]
      rw [String.toList_ofList, List.append_assoc, List.singleton_append]
    rw [hsplit]
    apply IsCut.returnFeed _ hrest
    rw [String.toList_ofList]
    apply fun hmem => hfirst ((List.dropLast_sublist _).mem hmem)
  case isFalse hlast =>
    have hlist := @String.toList_ofList first
    nth_rewrite 1 [← hlist]
    apply IsCut.feed ⟨_, _⟩ hrest <;> rwa [hlist]

/-- Each text is cut into its lines. -/
theorem isCut_lines (cs : List Char) : IsCut cs ((lines cs).map String.ofList) := by
  -- A text with a line feed is longer than what comes after its first one.
  induction hn : cs.length using Nat.strongRecOn generalizing cs with
  | ind n ih =>
      by_cases hmem : '\n' ∈ cs
      · obtain ⟨first, rest, rfl, hfirst⟩ := List.eq_append_cons_of_mem hmem
        have hlt : rest.length < n := by
          rw [← hn, List.length_append, List.length_cons]
          omega
        have hrest := ih rest.length hlt rest rfl
        rw [lines_append, pieces_of_not_mem hfirst]
        apply isCut_dropReturn hfirst hrest
      · rw [lines, pieces_of_not_mem hmem]
        cases cs with
        | nil => apply IsCut.nil
        | cons c cs =>
            have hlist := @String.toList_ofList (c :: cs)
            have hlast : IsCut (String.ofList (c :: cs)).toList [String.ofList (c :: cs)] := by
              apply IsCut.last
              · rw [Ne, ← String.toList_eq_nil_iff, hlist]
                simp
              · rwa [hlist]
            rw [hlist] at hlast
            apply hlast

/-! ### Putting together -/

theorem linesOf_unlines_cons (line : String) (all : List String) :
  linesOf (unlines (line :: all))
    = ((pieces '\n' line.toList).map dropReturn).map String.ofList ++ linesOf (unlines all)
  := by
  rw [unlines, List.map_cons, String.join_cons, linesOf_append, unlines]

theorem IsLine.linesOf_unlines_cons {line : String} (h : IsLine line) (all : List String) :
  linesOf (unlines (line :: all)) = line :: linesOf (unlines all)
  := by
  have hreturn : dropReturn line.toList = line.toList := if_neg h.ending
  rw [Text.linesOf_unlines_cons, pieces_of_not_mem h.feed, List.map_singleton, hreturn,
    List.map_singleton, String.ofList_toList, List.singleton_append]

/-- The text of lines has the lines of each of them. -/
theorem linesOf_unlines_append (first second : List String) :
  linesOf (unlines (first ++ second)) = linesOf (unlines first) ++ linesOf (unlines second)
  := by
  induction first with
  | nil => rfl
  | cons line first ih =>
      rw [List.cons_append, linesOf_unlines_cons, linesOf_unlines_cons, ih, List.append_assoc]

/-- Lines are found again in their text. -/
theorem linesOf_unlines {all : List String} (h : ∀ line ∈ all, IsLine line) :
  linesOf (unlines all) = all
  := by
  induction all with
  | nil => rfl
  | cons line all ih =>
      obtain ⟨hline, hall⟩ := List.forall_mem_cons.mp h
      rw [hline.linesOf_unlines_cons, ih hall]

/-- Lines next to each other are found again in the text of more lines, whatever these are. -/
theorem isInfix_linesOf_unlines {part all : List String} (hpart : part <:+: all)
    (h : ∀ line ∈ part, IsLine line) :
  part <:+: linesOf (unlines all)
  := by
  obtain ⟨before, after, rfl⟩ := hpart
  use linesOf (unlines before), linesOf (unlines after)
  rw [linesOf_unlines_append, linesOf_unlines_append, linesOf_unlines h]

/-- Whether a text is made of lines: it has the lines that each of them is cut into. -/
structure IsTextOf (text : String) (all : List String) : Prop where
  eq_unlines : text = unlines all
  linesOf_eq : linesOf text = all.flatMap fun line => linesOf (line ++ "\n")

theorem isTextOf_unlines (all : List String) : IsTextOf (unlines all) all where
  eq_unlines := rfl
  linesOf_eq := by
    induction all with
    | nil => rfl
    | cons line all ih =>
        have hline : unlines [line] = line ++ "\n" := by simp [unlines]
        rw [← List.singleton_append, linesOf_unlines_append, ih, hline]
        rfl

/-- Lines next to each other are found again in a text that is made of them and of others. -/
theorem IsTextOf.isInfix {text : String} {part all : List String} (h : IsTextOf text all)
    (hpart : part <:+: all) (hlines : ∀ line ∈ part, IsLine line) :
  part <:+: linesOf text
  := by
  rw [h.eq_unlines]
  apply isInfix_linesOf_unlines hpart hlines

theorem IsTextOf.mem_linesOf {text line : String} {all : List String} (h : IsTextOf text all)
    (hmem : line ∈ all) (hline : IsLine line) :
  line ∈ linesOf text
  := by
  obtain ⟨before, after, rfl⟩ := List.append_of_mem hmem
  have hpart : [line] <:+: before ++ line :: after := ⟨before, after, by simp⟩
  have hinfix := h.isInfix hpart (List.forall_mem_singleton.mpr hline)
  apply hinfix.subset (List.mem_singleton_self line)

/-- A text that is made of lines is cut into them again. -/
theorem IsTextOf.linesOf {text : String} {all : List String} (h : IsTextOf text all)
    (hlines : ∀ line ∈ all, IsLine line) :
  linesOf text = all
  := by
  rw [h.eq_unlines]
  apply linesOf_unlines hlines

/-! ### Texts that are one line -/

instance (line : String) : Decidable (IsLine line) :=
  decidable_of_iff ('\n' ∉ line.toList ∧ line.toList.getLast? ≠ some '\r')
    ⟨fun h => ⟨h.1, h.2⟩, fun h => ⟨h.1, h.2⟩⟩

theorem isLine_append {text ending : String} (htext : '\n' ∉ text.toList) (hending : IsLine ending)
    (hne : ending ≠ "") :
  IsLine (text ++ ending)
  := by
  have hlist : ending.toList ≠ [] := by
    rwa [Ne, String.toList_eq_nil_iff]
  constructor
  case feed =>
    rw [String.toList_append, List.mem_append]
    rintro (h | h)
    · apply htext h
    · apply hending.feed h
  case ending =>
    rw [String.toList_append, List.getLast?_append_of_ne_nil _ hlist]
    apply hending.ending

/-- Whether a text has neither blanks nor line feeds nor dots. -/
structure IsToken (text : String) : Prop where
  blank : ' ' ∉ text.toList
  feed : '\n' ∉ text.toList
  dot : '.' ∉ text.toList

instance (text : String) : Decidable (IsToken text) :=
  decidable_of_iff (' ' ∉ text.toList ∧ '\n' ∉ text.toList ∧ '.' ∉ text.toList)
    ⟨fun h => ⟨h.1, h.2.1, h.2.2⟩, fun h => ⟨h.1, h.2, h.3⟩⟩

theorem IsToken.append {first second : String} (hfirst : IsToken first) (hsecond : IsToken second) :
  IsToken (first ++ second)
  := by
  constructor <;> rw [String.toList_append, List.mem_append, not_or]
  · use hfirst.blank, hsecond.blank
  · use hfirst.feed, hsecond.feed
  · use hfirst.dot, hsecond.dot

/-- What stands in joined texts stands in one of them or between them. -/
theorem mem_of_mem_intercalate {α : Type} {separator : List α} {texts : List (List α)} {a : α}
    (h : a ∈ separator.intercalate texts) :
  a ∈ separator ∨ ∃ text ∈ texts, a ∈ text
  := by
  induction texts with
  | nil => simp at h
  | cons text rest ih =>
      cases rest with
      | nil =>
          rw [List.intercalate_singleton] at h
          apply Or.inr ⟨text, List.mem_cons_self, h⟩
      | cons next rest =>
          rw [List.intercalate_cons_cons, List.mem_append, List.mem_append] at h
          rcases h with (h | h) | h
          · apply Or.inr ⟨text, List.mem_cons_self, h⟩
          · apply Or.inl h
          · rcases ih h with h | ⟨other, hother, h⟩
            · apply Or.inl h
            · apply Or.inr ⟨other, List.mem_cons_of_mem _ hother, h⟩

/-! ### Words -/

/-- The parts of a text between its blanks. -/
def wordsOf (text : String) : List String :=
  (pieces ' ' text.toList).map String.ofList

theorem wordsOf_append (first second : String) :
  wordsOf (first ++ " " ++ second) = wordsOf first ++ wordsOf second
  := by
  have htext : (first ++ " " ++ second).toList = first.toList ++ ' ' :: second.toList := by
    simp
  rw [wordsOf, htext, pieces_append, List.map_append, wordsOf, wordsOf]

theorem wordsOf_of_not_mem {text : String} (h : ' ' ∉ text.toList) : wordsOf text = [text] := by
  rw [wordsOf, pieces_of_not_mem h, List.map_singleton, String.ofList_toList]

theorem IsToken.wordsOf {text : String} (h : IsToken text) : wordsOf text = [text] :=
  wordsOf_of_not_mem h.blank

end ServiceBindings.Text
