import Mathlib.Data.List.SplitBy
import ServiceBindings.Naming.Words
import ServiceBindings.Proofs.Text.Case

/-!
# Where identifiers are cut

The words of an identifier are read from left to right, with one word open.  Which words come out
can be said place by place, without that word: a capital starts a piece if it follows another kind
of character or if a small letter follows it, and separators stand between pieces.  The words are
these pieces in lower case, without the separators, so that nothing else of the identifier is lost.
-/

namespace ServiceBindings.Words

open Text

/-! ### The rule -/

/-- A character of a text, with the one after it. -/
structure Place where
  char : Char
  next : Option Char

namespace Place

/-- Whether a text is cut before a place, when `before` is the place before it: at a capital that
follows no capital or is followed by a small letter. -/
def isCut (before place : Place) : Bool :=
  isUpper place.char && (!isUpper before.char || place.next.any isLower)

/-- Whether two places next to each other belong to one piece. -/
def joins (before place : Place) : Bool :=
  !isSeparator before.char && !isSeparator place.char && !isCut before place

end Place

/-- The places of a text. -/
def places (cs : List Char) : List Place :=
  List.zipWith Place.mk cs (cs.tail.map some ++ [none])

/-- The texts of blocks of places without the separators, as far as they are not empty. -/
def kept (blocks : List (List Place)) : List (List Char) :=
  (blocks.map fun block => (block.map Place.char).filter fun c => !isSeparator c).filter (· ≠ [])

/-- The pieces of an identifier. -/
def pieces (cs : List Char) : List (List Char) :=
  kept ((places cs).splitBy Place.joins)

theorem places_cons (c : Char) (cs : List Char) :
  places (c :: cs) = ⟨c, cs.head?⟩ :: places cs
  := by
  cases cs <;> rfl

theorem map_char_places (cs : List Char) : (places cs).map Place.char = cs := by
  induction cs with
  | nil => rfl
  | cons c cs ih => rw [places_cons, List.map_cons, ih]

theorem kept_append (blocks others : List (List Place)) :
  kept (blocks ++ others) = kept blocks ++ kept others
  := by
  simp [kept]

/-- The pieces hold all characters but the separators. -/
theorem flatten_pieces (cs : List Char) :
  (pieces cs).flatten = cs.filter fun c => !isSeparator c
  := by
  have hkept (blocks : List (List Place)) :
      (kept blocks).flatten = (blocks.flatten.map Place.char).filter fun c => !isSeparator c := by
    induction blocks with
    | nil => rfl
    | cons block blocks ih =>
        rw [← List.singleton_append, kept_append, List.flatten_append, ih, List.flatten_append,
          List.map_append, List.filter_append]
        congr 1
        by_cases hempty : (block.map Place.char).filter (fun c => !isSeparator c) = []
        · simp [kept, hempty]
        · simp [kept, hempty]
  rw [pieces, hkept, List.flatten_splitBy, map_char_places]

/-! ### The open word -/

/-- Whether places can be those of the open word. -/
structure IsOpen (block : List Place) : Prop where
  chain : block.IsChain fun before place => Place.joins before place
  clear : ∀ place ∈ block, isSeparator place.char = false

/-- The characters of the open word. -/
def opened (block : List Place) : List Char :=
  (block.map Place.char).flatMap lower

/-- Whether the open word ends with a capital. -/
def endsUpper (block : List Place) : Bool :=
  block.getLast?.any fun place => isUpper place.char

theorem isOpen_nil : IsOpen [] :=
  ⟨List.isChain_nil, List.forall_mem_nil _⟩

theorem isOpen_singleton {place : Place} (h : isSeparator place.char = false) : IsOpen [place] :=
  ⟨List.isChain_singleton place, by simpa using h⟩

theorem opened_singleton (place : Place) : opened [place] = lower place.char := by
  simp [opened]

theorem opened_concat (block : List Place) (place : Place) :
  opened (block ++ [place]) = opened block ++ lower place.char
  := by
  simp [opened]

theorem endsUpper_concat (block : List Place) (place : Place) :
  endsUpper (block ++ [place]) = isUpper place.char
  := by
  simp [endsUpper]

namespace IsOpen

variable {block : List Place}

theorem concat (h : IsOpen block) {place : Place} (hplace : isSeparator place.char = false)
    (hjoins : ∀ before ∈ block.getLast?, Place.joins before place = true) :
  IsOpen (block ++ [place])
  := by
  constructor
  · apply List.IsChain.append h.chain (List.isChain_singleton place)
    intro before hbefore other hother
    obtain rfl : place = other := by simpa using hother
    apply hjoins before hbefore
  · intro other hother
    rcases List.mem_append.mp hother with hother | hother
    · apply h.clear other hother
    · rw [List.mem_singleton.mp hother, hplace]

/-- The open word is closed where its places are cut off. -/
theorem kept_splitBy (h : IsOpen block) (blocks : List (List Place)) :
  (kept (block.splitBy Place.joins ++ blocks)).map (fun piece => piece.flatMap lower)
    = close (opened block) ((kept blocks).map fun piece => piece.flatMap lower)
  := by
  by_cases hempty : block = []
  · rw [hempty]
    rfl
  have hclear : (block.map Place.char).filter (fun c => !isSeparator c) = block.map Place.char := by
    rw [List.filter_eq_self]
    intro c hc
    obtain ⟨place, hplace, rfl⟩ := List.mem_map.mp hc
    rw [h.clear place hplace]
    rfl
  have hopened : (opened block).isEmpty = false := by
    obtain ⟨place, block, rfl⟩ := List.exists_cons_of_ne_nil hempty
    simp [opened, lower_ne_nil]
  rw [List.splitBy_of_isChain hempty h.chain, close, hopened, kept_append]
  simp [kept, hclear, hempty, opened]

/-- The places of the open word and a place that is cut off from them. -/
theorem kept_append_cons (h : IsOpen block) {place : Place}
    (hcut : ∀ before ∈ block.getLast?, Place.joins before place = false) (others : List Place) :
  (kept ((block ++ place :: others).splitBy Place.joins)).map (fun piece => piece.flatMap lower)
    = close (opened block)
      ((kept ((place :: others).splitBy Place.joins)).map fun piece => piece.flatMap lower)
  := by
  rw [List.splitBy_append_cons others hcut, h.kept_splitBy]

end IsOpen

/-! ### One character more -/

section Step

variable {c : Char} {cs : List Char} {before : Place}

theorem startsLower_eq (cs : List Char) : startsLower cs = cs.head?.any isLower := by
  cases cs <;> rfl

/-- A separator closes the open word. -/
theorem cut_separator (h : isSeparator c = true) (word : List Char) (inRun : Bool) :
  cut word inRun (c :: cs) = close word (cut [] false cs)
  := by
  rw [cut, if_pos h]

/-- The first character after a separator opens a word. -/
theorem cut_first (h : isSeparator c = false) :
  cut [] false (c :: cs) = cut (lower c) (isUpper c) cs
  := by
  rw [cut, if_neg (by simp [h])]
  split
  case isTrue hupper =>
    rw [hupper]
    rfl
  case isFalse hupper =>
    rw [Bool.eq_false_iff.mpr hupper]
    rfl

/-- A character that belongs to the piece before it makes the open word longer. -/
theorem cut_joined (h : Place.joins before ⟨c, cs.head?⟩ = true) (word : List Char) :
  cut word (isUpper before.char) (c :: cs) = cut (word ++ lower c) (isUpper c) cs
  := by
  simp only [Place.joins, Place.isCut, ← startsLower_eq, Bool.and_eq_true, Bool.not_eq_true']
    at h
  obtain ⟨⟨-, hclear⟩, hcut⟩ := h
  rw [cut, if_neg (by simp [hclear])]
  split
  case isTrue hupper =>
    have hrun : (isUpper before.char && !startsLower cs) = true := by simpa [hupper] using hcut
    rw [if_pos hrun, hupper]
  case isFalse hupper => rw [Bool.eq_false_iff.mpr hupper]

/-- A character before which a text is cut closes the open word and opens another one. -/
theorem cut_severed (hclear : isSeparator c = false)
    (h : Place.isCut before ⟨c, cs.head?⟩ = true) (word : List Char) :
  cut word (isUpper before.char) (c :: cs) = close word (cut (lower c) (isUpper c) cs)
  := by
  simp only [Place.isCut, ← startsLower_eq, Bool.and_eq_true] at h
  obtain ⟨hupper, hstarts⟩ := h
  have hrun : ¬(isUpper before.char && !startsLower cs) = true := by
    simpa [or_iff_not_imp_left] using hstarts
  rw [cut, if_neg (by simp [hclear]), if_pos hupper, if_neg hrun, hupper]

end Step

/-- The words of a text with an open word before it are the pieces of both. -/
theorem cut_eq_kept {block : List Place} (h : IsOpen block) (cs : List Char) :
  cut (opened block) (endsUpper block) cs
    = (kept ((block ++ places cs).splitBy Place.joins)).map fun piece => piece.flatMap lower
  := by
  -- The induction is on the text that is still to be read; the places of `block` have been read.
  induction cs generalizing block with
  | nil =>
      have hkept := h.kept_splitBy []
      rw [List.append_nil] at hkept
      rw [places, List.zipWith_nil_left, List.append_nil, hkept]
      rfl
  | cons c cs ih =>
      rw [places_cons]
      by_cases hseparator : isSeparator c = true
      · -- A separator is a block of its own, and nothing of it is kept.
        have hbefore (before : Place) : Place.joins before ⟨c, cs.head?⟩ = false := by
          simp [Place.joins, hseparator]
        have hafter (place : Place) : Place.joins ⟨c, cs.head?⟩ place = false := by
          simp [Place.joins, hseparator]
        have hdropped : kept (List.splitBy Place.joins [⟨c, cs.head?⟩]) = [] := by
          simp [List.splitBy, List.splitBy.loop, kept, hseparator]
        rw [cut_separator hseparator, h.kept_append_cons fun before _ => hbefore before,
          ← List.singleton_append, List.splitBy_append (by simp [hafter]), kept_append, hdropped,
          List.nil_append, ← List.nil_append (places cs), ← ih isOpen_nil]
        rfl
      · have hclear : isSeparator c = false := by simpa using hseparator
        have hfirst : IsOpen [⟨c, cs.head?⟩] := isOpen_singleton hclear
        rcases List.eq_nil_or_concat block with rfl | ⟨block, before, rfl⟩
        · have hwords := ih hfirst
          rw [opened_singleton] at hwords
          apply Eq.trans (cut_first hclear) hwords
        · rw [List.concat_eq_append] at h ⊢
          rw [endsUpper_concat]
          by_cases hjoins : Place.joins before ⟨c, cs.head?⟩ = true
          · have hlast : IsOpen (block ++ [before] ++ [⟨c, cs.head?⟩]) :=
              h.concat hclear (by simpa using hjoins)
            have hlonger := ih hlast
            rw [opened_concat, endsUpper_concat, List.append_assoc, List.singleton_append]
              at hlonger
            rw [cut_joined hjoins, hlonger]
          · have hcut : Place.isCut before ⟨c, cs.head?⟩ = true := by
              simpa [Place.joins, hclear, h.clear before (by simp)] using hjoins
            have hwords := ih hfirst
            rw [opened_singleton] at hwords
            rw [cut_severed hclear hcut, h.kept_append_cons (by simpa using hjoins)]
            apply congrArg (close _) hwords

/-! ### The words of an identifier -/

theorem parts_parse (identifier : String) :
  (parse identifier).parts = (pieces identifier.toList).map fun piece => piece.flatMap lower
  :=
  cut_eq_kept isOpen_nil identifier.toList

theorem ne_nil_of_mem_pieces {cs piece : List Char} (h : piece ∈ pieces cs) : piece ≠ [] := by
  simpa using (List.mem_filter.mp h).2

theorem ne_nil_of_mem_parts {identifier : String} {part : List Char}
    (h : part ∈ (parse identifier).parts) :
  part ≠ []
  := by
  rw [parts_parse] at h
  obtain ⟨piece, hpiece, rfl⟩ := List.mem_map.mp h
  obtain ⟨c, cs, rfl⟩ := List.exists_cons_of_ne_nil (ne_nil_of_mem_pieces hpiece)
  simp [lower_ne_nil]

theorem flatten_parts (identifier : String) :
  (parse identifier).parts.flatten
    = (identifier.toList.filter fun c => !isSeparator c).flatMap lower
  := by
  rw [parts_parse, ← flatten_pieces, List.flatMap_def, List.map_flatten, List.flatten_flatten,
    List.map_map]
  rfl

/-- An identifier with a character that is no separator has words. -/
theorem parts_ne_nil_of_mem {identifier : String} {c : Char} (hc : c ∈ identifier.toList)
    (hclear : isSeparator c = false) :
  (parse identifier).parts ≠ []
  := by
  intro hparts
  have hflatten := flatten_parts identifier
  rw [hparts, List.flatten_nil, eq_comm, List.flatMap_eq_nil_iff] at hflatten
  apply lower_ne_nil c
  apply hflatten
  rw [List.mem_filter]
  exact ⟨hc, by simp [hclear]⟩

/-- The characters of words are those that the characters of the identifier become. -/
theorem exists_of_mem_parts {identifier : String} {part : List Char} {x : Char}
    (hpart : part ∈ (parse identifier).parts) (hx : x ∈ part) :
  ∃ c ∈ identifier.toList, isSeparator c = false ∧ x ∈ lower c
  := by
  have hflatten := List.mem_flatten_of_mem hpart hx
  rw [flatten_parts] at hflatten
  obtain ⟨c, hc, hx⟩ := List.mem_flatMap.mp hflatten
  obtain ⟨hc, hclear⟩ := List.mem_filter.mp hc
  exact ⟨c, hc, by simpa using hclear, hx⟩

/-- The words of an identifier are its pieces in lower case.  Together they are the identifier in
lower case without its separators, and none of them is empty. -/
theorem parse_eq_pieces (identifier : String) :
  (parse identifier).parts = (pieces identifier.toList).map (fun piece => piece.flatMap lower)
    ∧ (parse identifier).parts.flatten
      = (identifier.toList.filter fun c => !isSeparator c).flatMap lower
    ∧ ∀ part ∈ (parse identifier).parts, part ≠ []
  := by
  refine ⟨parts_parse identifier, flatten_parts identifier, ?_⟩
  intro part hpart
  apply ne_nil_of_mem_parts hpart

example : pieces "v2HTTPResponse_ID".toList
    = ["v2".toList, "HTTP".toList, "Response".toList, "ID".toList] := by
  decide

end ServiceBindings.Words
