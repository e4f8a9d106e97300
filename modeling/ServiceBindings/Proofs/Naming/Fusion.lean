import ServiceBindings.Proofs.Naming.Pascal
import ServiceBindings.Proofs.Naming.Settled

/-!
# Words that Pascal case fuses

In Pascal case only capitals show where words start.  A word that is a single letter ends with its
capital, so that the capital of the next word continues a run and starts no word when the text is
cut again, unless a small letter follows.  Such words are fused, and the second one loses its
capital.  For ASCII identifiers that is the only reason why Pascal case is not the same when it is
taken twice.
-/

namespace ServiceBindings.Words

open Text

/-! ### Fused words -/

/-- Whether a word is a single letter. -/
def isSingleLetter : List Char → Bool
  | [c] => c.isAlpha
  | _ => false

/-- Whether a word starts with a letter that no other letter follows. -/
def startsAlone : List Char → Bool
  | [] => false
  | [c] => c.isAlpha
  | c :: d :: _ => c.isAlpha && !d.isAlpha

/-- Whether two words next to each other are fused in Pascal case. -/
def fuses (before part : List Char) : Bool :=
  isSingleLetter before && startsAlone part

/-! ### Words of ASCII characters -/

/-- What is known about the words of an ASCII identifier. -/
structure IsAsciiWord (part : List Char) : Prop where
  ne_nil : part ≠ []
  ascii : ∀ c ∈ part, c.toNat < 128
  settled : IsSettled part

theorem IsAscii.isAsciiWord {identifier : String} (h : IsAscii identifier) {part : List Char}
    (hpart : part ∈ (parse identifier).parts) :
  IsAsciiWord part
  := by
  refine ⟨ne_nil_of_mem_parts hpart, ?_, h.isRegular.isSettled hpart⟩
  intro x hx
  obtain ⟨c, hc, -, hx⟩ := exists_of_mem_parts hpart hx
  have hlower : (lower c).all (fun x => x.toNat < 128) = true := by
    apply forall_ascii _ (h c hc)
    decide +kernel
  simpa using List.all_eq_true.mp hlower x hx

/-- Whether a character is the capital of another one. -/
@[mk_iff]
structure IsCapitalOf (capital c : Char) : Prop where
  upper_eq : upper c = [capital]
  lower_eq : lower capital = [c]
  isUpper : Text.isUpper capital = true
  not_isLower : Text.isLower capital = false
  not_isSeparator : isSeparator capital = false

instance (capital c : Char) : Decidable (IsCapitalOf capital c) :=
  decidable_of_iff _ (isCapitalOf_iff capital c).symm

/-- A letter that is no capital has one. -/
theorem isCapitalOf_toUpper {c : Char} (hascii : c.toNat < 128) (hsmall : Text.isUpper c = false)
    (hletter : c.isAlpha = true) :
  IsCapitalOf c.toUpper c
  := by
  revert hsmall hletter
  apply forall_ascii _ hascii
  decide +kernel

theorem upper_of_not_isAlpha {c : Char} (hascii : c.toNat < 128) (hother : c.isAlpha = false) :
  upper c = [c]
  := by
  revert hother
  apply forall_ascii _ hascii
  decide +kernel

theorem isLower_eq_isAlpha {c : Char} (hascii : c.toNat < 128) (hsmall : Text.isUpper c = false) :
  Text.isLower c = c.isAlpha
  := by
  revert hsmall
  apply forall_ascii _ hascii
  decide +kernel

/-! ### Cutting words in Pascal case -/

/-- Words in Pascal case. -/
def pascal (parts : List (List Char)) : List Char :=
  (parts.map capitalize).flatten

theorem pascal_cons (part : List Char) (rest : List (List Char)) :
  pascal (part :: rest) = capitalize part ++ pascal rest
  := by
  rw [pascal, List.map_cons, List.flatten_cons, pascal]

theorem pascal_close (word : List Char) (rest : List (List Char)) :
  pascal (close word rest) = capitalize word ++ pascal rest
  :=
  flatten_capitalize_close word rest

theorem capitalize_append {word : List Char} (h : word ≠ []) (text : List Char) :
  capitalize (word ++ text) = capitalize word ++ text
  := by
  obtain ⟨c, cs, rfl⟩ := List.exists_cons_of_ne_nil h
  simp [capitalize]

/-- No small letter stands at the start of words in Pascal case. -/
theorem startsLower_pascal {parts : List (List Char)} (h : ∀ part ∈ parts, IsAsciiWord part) :
  startsLower (pascal parts) = false
  := by
  cases parts with
  | nil => rfl
  | cons part rest =>
      obtain ⟨hne, hascii, hsettled⟩ := h part List.mem_cons_self
      obtain ⟨c, cs, rfl⟩ := List.exists_cons_of_ne_nil hne
      have hc := hascii c List.mem_cons_self
      have hsmall := hsettled.no_upper c List.mem_cons_self
      rw [pascal_cons, capitalize]
      by_cases hletter : c.isAlpha = true
      · have hcapital := isCapitalOf_toUpper hc hsmall hletter
        rw [hcapital.upper_eq]
        apply hcapital.not_isLower
      · rw [Bool.not_eq_true] at hletter
        rw [upper_of_not_isAlpha hc hletter, ← hletter, ← isLower_eq_isAlpha hc hsmall]
        rfl

/-- The first letter of a word stands alone if it is not followed by a small letter in Pascal
case. -/
theorem startsAlone_eq {c : Char} {cs : List Char} (h : IsAsciiWord (c :: cs))
    (hletter : c.isAlpha = true) {rest : List (List Char)}
    (hrest : ∀ part ∈ rest, IsAsciiWord part) :
  startsAlone (c :: cs) = !startsLower (cs ++ pascal rest)
  := by
  cases cs with
  | nil => rw [startsAlone, List.nil_append, startsLower_pascal hrest, hletter, Bool.not_false]
  | cons d ds =>
      have hd := isLower_eq_isAlpha (h.ascii d (by simp)) (h.settled.no_upper d (by simp))
      rw [startsAlone, List.cons_append, startsLower, hletter, hd, Bool.true_and]

theorem isSingleLetter_cons (c : Char) (cs : List Char) :
  isSingleLetter (c :: cs) = (c.isAlpha && cs.isEmpty)
  := by
  cases cs <;> simp [isSingleLetter]

/-- One word in Pascal case: it opens a word if it shows a capital that continues no run. -/
theorem cut_capitalize {part : List Char} (h : IsAsciiWord part) {rest : List (List Char)}
    (hrest : ∀ part ∈ rest, IsAsciiWord part) (word before : List Char) :
  cut word (isSingleLetter before) (capitalize part ++ pascal rest)
    = if (part.head?.any Char.isAlpha && !fuses before part) = true
      then close word (cut part (isSingleLetter part) (pascal rest))
      else cut (word ++ part) (isSingleLetter part) (pascal rest)
  := by
  obtain ⟨c, cs, rfl⟩ := List.exists_cons_of_ne_nil h.ne_nil
  have hc := h.ascii c List.mem_cons_self
  have hsmall := h.settled.no_upper c List.mem_cons_self
  rw [isSingleLetter_cons, List.head?_cons, Option.any_some]
  by_cases hletter : c.isAlpha = true
  · have hcapital := isCapitalOf_toUpper hc hsmall hletter
    have hcs : IsSettled cs :=
      isSettled_iff.mpr fun d hd => isSettled_iff.mp h.settled d (List.mem_cons_of_mem c hd)
    have hrun : (isSingleLetter before && !startsLower (cs ++ pascal rest))
        = fuses before (c :: cs) := by
      rw [fuses, startsAlone_eq h hletter hrest]
    rw [capitalize, hcapital.upper_eq, List.append_assoc, List.singleton_append, cut,
      if_neg (by simp [hcapital.not_isSeparator]), if_pos hcapital.isUpper, hcapital.lower_eq,
      hrun, hletter, Bool.true_and]
    cases fuses before (c :: cs) with
    | true => simp [hcs.cut_append]
    | false => simp [hcs.cut_append]
  · rw [Bool.not_eq_true] at hletter
    rw [capitalize, upper_of_not_isAlpha hc hletter, List.singleton_append, h.settled.cut_append,
      hletter]
    simp

/-! ### Cutting Pascal case again -/

/-- The open word stands at the start of the words. -/
theorem prefix_cut {word : List Char} (h : word ≠ []) (inRun : Bool) (cs : List Char) :
  capitalize word <+: pascal (cut word inRun cs)
  := by
  have hclose (word : List Char) (rest : List (List Char)) :
      capitalize word <+: pascal (close word rest) := by
    rw [pascal_close]
    apply List.prefix_append
  have hlonger {word text : List Char} (h : word ≠ []) {words : List (List Char)}
      (hwords : word ++ text ≠ [] → capitalize (word ++ text) <+: pascal words) :
      capitalize word <+: pascal words := by
    rw [capitalize_append h] at hwords
    apply (List.prefix_append _ text).trans (hwords (by simp [h]))
  induction word, inRun, cs using cut.induct with
  | case1 word inRun => apply hclose
  | case2 word inRun c cs hc ih =>
      rw [cut, if_pos hc]
      apply hclose
  | case3 word inRun c cs hc hupper hrun ih =>
      rw [cut, if_neg hc, if_pos hupper, if_pos hrun]
      apply hlonger h ih
  | case4 word inRun c cs hc hupper hrun ih =>
      rw [cut, if_neg hc, if_pos hupper, if_neg hrun]
      apply hclose
  | case5 word inRun c cs hc hupper ih =>
      rw [cut, if_neg hc, if_neg hupper]
      apply hlonger h ih

/-- A word that is fused with the open word loses its capital. -/
theorem pascal_cut_ne {part : List Char} (h : IsAsciiWord part) (halone : startsAlone part = true)
    {word : List Char} (hword : word ≠ []) (inRun : Bool) (cs rest : List Char) :
  pascal (cut (word ++ part) inRun cs) ≠ capitalize word ++ (capitalize part ++ rest)
  := by
  intro heq
  obtain ⟨c, tail, rfl⟩ := List.exists_cons_of_ne_nil h.ne_nil
  have hletter : c.isAlpha = true := by
    cases tail with
    | nil => apply halone
    | cons d tail => exact ((Bool.and_eq_true _ _).mp halone).1
  have hsmall := h.settled.no_upper c List.mem_cons_self
  have hcapital := isCapitalOf_toUpper (h.ascii c List.mem_cons_self) hsmall hletter
  have hfront : capitalize (word ++ c :: tail) <+: pascal (cut (word ++ c :: tail) inRun cs) := by
    apply prefix_cut (by simp)
  rw [heq, capitalize_append hword, List.prefix_append_right_inj, capitalize, hcapital.upper_eq,
    List.singleton_append, List.cons_append, List.cons_prefix_cons] at hfront
  rw [hfront.1, hcapital.isUpper] at hsmall
  cases hsmall

/-- A word that shows no capital is written after another one as it is written by itself. -/
theorem capitalize_append_of_not_isAlpha {part : List Char} (h : IsAsciiWord part)
    (hother : part.head?.any Char.isAlpha = false) (word : List Char) :
  capitalize (word ++ part) = capitalize word ++ capitalize part
  := by
  by_cases hword : word = []
  · rw [hword]
    rfl
  · obtain ⟨c, cs, rfl⟩ := List.exists_cons_of_ne_nil h.ne_nil
    have hupper := upper_of_not_isAlpha (h.ascii c List.mem_cons_self) hother
    rw [capitalize_append hword, capitalize, hupper, List.singleton_append]

/-- Cutting words in Pascal case and writing them in Pascal case gives what it was given exactly if
no two words next to each other are fused. -/
theorem pascal_cut_iff {parts : List (List Char)} (h : ∀ part ∈ parts, IsAsciiWord part)
    {word before : List Char} (hword : isSingleLetter before = true → word ≠ []) :
  pascal (cut word (isSingleLetter before) (pascal parts)) = capitalize word ++ pascal parts
    ↔ (before :: parts).IsChain fun before part => fuses before part = false
  := by
  -- `before` is the word that was read last, so a run goes on exactly if it is a single letter.
  induction parts generalizing word before with
  | nil => exact iff_of_true (pascal_close word []) (List.isChain_singleton before)
  | cons part rest ih =>
      obtain ⟨hpart, hrest⟩ := List.forall_mem_cons.mp h
      rw [List.isChain_cons_cons, pascal_cons, cut_capitalize hpart hrest]
      by_cases hfuses : fuses before part = true
      · -- Both sides fail: the first letter of the word is small now.
        obtain ⟨hsingle, halone⟩ := (Bool.and_eq_true _ _).mp hfuses
        have hne := pascal_cut_ne hpart halone (hword hsingle) (isSingleLetter part) (pascal rest)
          (pascal rest)
        simp [hfuses, hne]
      · rw [Bool.not_eq_true] at hfuses
        by_cases hletter : part.head?.any Char.isAlpha = true
        · rw [if_pos (by simp [hletter, hfuses]), pascal_close, List.append_cancel_left_eq,
            ih hrest fun _ => hpart.ne_nil]
          simp [hfuses]
        · rw [Bool.not_eq_true] at hletter
          rw [if_neg (by simp [hletter]), ← List.append_assoc,
            ← capitalize_append_of_not_isAlpha hpart hletter, ih hrest (by simp [hpart.ne_nil])]
          simp [hfuses]

/-- That no words next to each other are fused, by their places. -/
theorem isChain_not_fuses_iff (parts : List (List Char)) :
  ([] :: parts).IsChain (fun before part => fuses before part = false)
    ↔ ¬∃ i before part, parts[i]? = some before ∧ parts[i + 1]? = some part
      ∧ fuses before part = true
  := by
  have hfirst : ([] :: parts).IsChain (fun before part => fuses before part = false)
      ↔ parts.IsChain fun before part => fuses before part = false := by
    cases parts with
    | nil => simp
    | cons part rest => simp [fuses, isSingleLetter]
  rw [hfirst, List.isChain_iff_getElem]
  constructor
  · rintro h ⟨i, before, part, hbefore, hpart, hfuses⟩
    obtain ⟨hi, rfl⟩ := List.getElem?_eq_some_iff.mp hbefore
    obtain ⟨hi', rfl⟩ := List.getElem?_eq_some_iff.mp hpart
    rw [h i hi'] at hfuses
    cases hfuses
  · intro h i hi
    by_contra hfuses
    apply h
    exact ⟨i, _, _, List.getElem?_eq_getElem _, List.getElem?_eq_getElem hi, by simpa using hfuses⟩

/-- An ASCII identifier is the same in Pascal case and in Pascal case of that exactly if none of its
words is a single letter before a word that starts with a letter and goes on with none. -/
theorem pascalCase_pascalCase_iff {identifier : String} (h : IsAscii identifier) :
  ServiceBindings.pascalCase (ServiceBindings.pascalCase identifier)
      = ServiceBindings.pascalCase identifier
    ↔ ¬∃ i before part, (parse identifier).parts[i]? = some before
      ∧ (parse identifier).parts[i + 1]? = some part
      ∧ fuses before part = true
  := by
  have hwords : ∀ part ∈ (parse identifier).parts, IsAsciiWord part :=
    fun part hpart => h.isAsciiWord hpart
  have hspelled (identifier : String) : ServiceBindings.pascalCase identifier
      = String.ofList (pascal (parse identifier).parts) :=
    congrArg String.ofList (renderChars_pascal _)
  have hstart : isSingleLetter [] = true → ([] : List Char) ≠ [] := by simp [isSingleLetter]
  rw [← isChain_not_fuses_iff, ← pascal_cut_iff hwords hstart, hspelled, hspelled,
    String.ofList_inj, parse, String.toList_ofList]
  rfl

theorem pascalCase_pascalCase_iff_axis :
  IsAscii "axis_x_y2" ∧ IsAscii "axis_x_yz"
    ∧ ServiceBindings.pascalCase (ServiceBindings.pascalCase "axis_x_y2")
      ≠ ServiceBindings.pascalCase "axis_x_y2"
    ∧ ServiceBindings.pascalCase (ServiceBindings.pascalCase "axis_x_yz")
      = ServiceBindings.pascalCase "axis_x_yz"
  := by
  have hfused : IsAscii "axis_x_y2" := by decide
  have hapart : IsAscii "axis_x_yz" := by decide
  refine ⟨hfused, hapart, ?_, ?_⟩
  · intro hsame
    apply (pascalCase_pascalCase_iff hfused).mp hsame
    exact ⟨1, ['x'], ['y', '2'], by decide, by decide, by decide⟩
  · apply (pascalCase_pascalCase_iff hapart).mpr
    rw [← isChain_not_fuses_iff]
    decide

end ServiceBindings.Words
