import ServiceBindings.Proofs.Naming.Identifier
import ServiceBindings.Proofs.Naming.Words

/-!
# What Pascal case tells apart

Words that are written without separators show where a word starts by a capital.  A word that starts
with a digit has none, so it reads as the end of the word before it.  For words that start with
ASCII characters that is all that gets lost: two names are the same in Pascal case exactly if they
are the same once such words are put together with those before them.
-/

namespace ServiceBindings.Words

open Text Identifier

/-! ### Underscores -/

/-- Joined texts start with what the first of them starts with. -/
theorem head?_intercalate_ne {α : Type} {separator : List α} {texts : List (List α)} {a : α}
    (h : ∀ text ∈ texts, text ≠ [] ∧ a ∉ text) :
  (separator.intercalate texts).head? ≠ some a
  := by
  cases texts with
  | nil => simp
  | cons text rest =>
      obtain ⟨hne, ha⟩ := h text List.mem_cons_self
      obtain ⟨b, text, rfl⟩ := List.exists_cons_of_ne_nil hne
      have hb : b ≠ a := by
        rintro rfl
        apply ha List.mem_cons_self
      cases rest <;> simpa [List.intercalate_cons_cons] using hb

/-- Joined texts end with what the last of them ends with. -/
theorem getLast?_intercalate_ne {α : Type} {separator : List α} {texts : List (List α)} {a : α}
    (h : ∀ text ∈ texts, text ≠ [] ∧ a ∉ text) :
  (separator.intercalate texts).getLast? ≠ some a
  := by
  induction texts with
  | nil => simp
  | cons text rest ih =>
      have hrest (other : List α) (hother : other ∈ rest) := h other (List.mem_cons_of_mem _ hother)
      cases rest with
      | nil =>
          rw [List.intercalate_singleton]
          intro hlast
          apply (h text List.mem_cons_self).2 (List.mem_of_getLast? hlast)
      | cons next rest =>
          have hne : separator.intercalate (next :: rest) ≠ [] := by
            have hnext := (hrest next List.mem_cons_self).1
            cases rest <;> simp [List.intercalate_cons_cons, hnext]
          rw [List.intercalate_cons_cons, List.getLast?_append, List.getLast?_eq_some_getLast hne,
            Option.some_or, ← List.getLast?_eq_some_getLast hne]
          apply ih hrest

theorem Parsed.not_mem {words : Words} (h : words.Parsed) {x : Char} (hx : IsForeign x) :
  ∀ part ∈ words.parts, part ≠ [] ∧ x ∉ part
  := by
  intro part hpart
  obtain ⟨identifier, hpart⟩ := h part hpart
  apply hx.not_mem_parse hpart

/-- What stands in no word stands in no word in Pascal case either, unless it is a capital. -/
theorem Parsed.not_mem_capitalize {words : Words} (h : words.Parsed) {x : Char} (hx : IsForeign x)
    (hcapital : x.isUpper = false) (hpos : 0 < x.toNat) (hascii : x.toNat < 128) :
  ∀ part ∈ words.parts.map capitalize, part ≠ [] ∧ x ∉ part
  := by
  intro part hpart
  obtain ⟨word, hword, rfl⟩ := List.mem_map.mp hpart
  obtain ⟨hne, hmem⟩ := h.not_mem hx word hword
  obtain ⟨c, cs, rfl⟩ := List.exists_cons_of_ne_nil hne
  rw [List.mem_cons, not_or] at hmem
  rw [capitalize, List.mem_append, not_or]
  refine ⟨by simp [upper_ne_nil], ?_, hmem.2⟩
  intro hupper
  rcases mem_upper hupper hpos hascii with ⟨hc, -⟩ | hletter
  · apply hmem.1 hc
  · rw [hcapital] at hletter
    cases hletter

theorem Parsed.isTrimmed_snake {words : Words} (h : words.Parsed) : IsTrimmed words.snakeCase := by
  have hparts := h.not_mem isForeign_underscore
  constructor <;> rw [snakeCase, render, String.toList_ofList, renderChars]
  · apply head?_intercalate_ne hparts
  · apply getLast?_intercalate_ne hparts

theorem Parsed.isTrimmed_pascal {words : Words} (h : words.Parsed) :
  IsTrimmed words.pascalCase
  := by
  have hparts := h.not_mem_capitalize isForeign_underscore rfl (by decide) (by decide)
  constructor <;> rw [pascalCase, render, String.toList_ofList, renderChars]
  · apply head?_intercalate_ne hparts
  · apply getLast?_intercalate_ne hparts

/-- What stands in no word stands in no name in Pascal case either, unless it is a capital. -/
theorem Parsed.not_mem_pascal {words : Words} (h : words.Parsed) {x : Char} (hx : IsForeign x)
    (hcapital : x.isUpper = false) (hpos : 0 < x.toNat) (hascii : x.toNat < 128) :
  x ∉ words.pascalCase.toList
  := by
  rw [pascalCase, render, String.toList_ofList]
  intro hmem
  rcases mem_of_mem_intercalate hmem with hmem | ⟨part, hpart, hmem⟩
  · cases hmem
  · apply (h.not_mem_capitalize hx hcapital hpos hascii part hpart).2 hmem

theorem Parsed.isToken_pascal {words : Words} (h : words.Parsed) : IsToken words.pascalCase where
  blank := h.not_mem_pascal isForeign_blank rfl (by decide) (by decide)
  feed := h.not_mem_pascal isForeign_feed rfl (by decide) (by decide)
  dot := h.not_mem_pascal isForeign_dot rfl (by decide) (by decide)

theorem Parsed.not_mem_snake {words : Words} (h : words.Parsed) {x : Char} (hx : IsForeign x)
    (hmark : x ≠ '_') :
  x ∉ words.snakeCase.toList
  := by
  rw [snakeCase, render, String.toList_ofList]
  intro hmem
  rcases mem_of_mem_intercalate hmem with hmem | ⟨part, hpart, hmem⟩
  · apply hmark (List.mem_singleton.mp hmem)
  · apply (h.not_mem hx part hpart).2 hmem

theorem Parsed.isToken_snake {words : Words} (h : words.Parsed) : IsToken words.snakeCase where
  blank := h.not_mem_snake isForeign_blank (by decide)
  feed := h.not_mem_snake isForeign_feed (by decide)
  dot := h.not_mem_snake isForeign_dot (by decide)

/-! ### Keywords -/

/-- No small letter stands at the start of a name in Pascal case. -/
theorem Parsed.head_pascal {words : Words} (h : words.Parsed) {x : Char}
    (hx : words.pascalCase.toList.head? = some x) :
  x.isLower = false
  := by
  rw [pascalCase, render, String.toList_ofList, renderChars] at hx
  obtain ⟨parts⟩ := words
  cases parts with
  | nil => cases hx
  | cons word rest =>
      obtain ⟨hne, -⟩ := h.not_mem isForeign_underscore word
        List.mem_cons_self
      obtain ⟨c, cs, rfl⟩ := List.exists_cons_of_ne_nil hne
      obtain ⟨first, others, hupper⟩ := List.exists_cons_of_ne_nil (upper_ne_nil c)
      have hfirst : first = x := by
        cases rest <;> simpa [styled, capitalize, hupper, List.intercalate_cons_cons] using hx
      subst hfirst
      by_contra hlower
      have hletter : first.isLower = true := by simpa using hlower
      have hbounds := toNat_of_isLower hletter
      rcases mem_upper (c := c) (by rw [hupper]; apply List.mem_cons_self) (by omega) (by omega)
        with ⟨rfl, hsmall⟩ | hcapital
      · rw [hsmall] at hletter
        cases hletter
      · have hbounds' := toNat_of_isUpper hcapital
        omega

/-- Names in Pascal case become the same identifier only if they are the same. -/
theorem escape_pascal_eq_iff {words other : Words} (h : words.Parsed) (h' : other.Parsed) :
  escape words.pascalCase = escape other.pascalCase ↔ words.pascalCase = other.pascalCase
  := by
  have hkeyword {words : Words} (h : words.Parsed) : words.pascalCase ∉ keywords := by
    have hall : ∀ word ∈ keywords, word.toList.head?.any Char.isLower = true := by decide
    intro hmem
    obtain ⟨x, hx, hlower⟩ := Option.any_eq_true _ _ |>.mp (hall _ hmem)
    rw [h.head_pascal hx] at hlower
    cases hlower
  rw [escape_eq_iff h.isTrimmed_pascal h'.isTrimmed_pascal]
  apply or_iff_left
  rintro (⟨hmem, -⟩ | ⟨hmem, -⟩)
  · apply hkeyword h hmem
  · apply hkeyword h' hmem

/-! ### Words without a capital -/

/-- Words put together until one starts with a small letter, when `word` is open. -/
def glueFrom (word : List Char) : List (List Char) → List (List Char)
  | [] => close word []
  | part :: rest =>
    if startsLower part then close word (glueFrom part rest) else glueFrom (word ++ part) rest

/-- The words with each one that starts with no small letter put together with the one before
it. -/
def glue (words : Words) : Words :=
  ⟨glueFrom [] words.parts⟩

/-- Whether each word starts with an ASCII character. -/
def StartsAscii (words : Words) : Prop :=
  ∀ part ∈ words.parts, part.head?.all (fun c => c.toNat < 128) = true

instance (words : Words) : Decidable words.StartsAscii :=
  inferInstanceAs (Decidable (∀ part ∈ words.parts, _))

/-- The words that a text shows by capitals, when `word` is open. -/
def uncapitalize (word : List Char) : List Char → List (List Char)
  | [] => close word []
  | c :: cs =>
    if c.isUpper then close word (uncapitalize [c.toLower] cs) else uncapitalize (word ++ [c]) cs

/-- What is known about each word: it starts with an ASCII character and has no capitals. -/
structure IsPlain (part : List Char) : Prop where
  ne_nil : part ≠ []
  ascii : part.head?.all (fun c => c.toNat < 128) = true
  small : ∀ c ∈ part, c.isUpper = false

theorem isForeign_capital {x : Char} (hx : x.isUpper = true) : IsForeign x := by
  have hbounds := toNat_of_isUpper hx
  intro c _ hmem
  rcases mem_lower hmem (by omega) (by omega) with ⟨rfl, hsmall⟩ | hlower
  · rw [hx] at hsmall
    cases hsmall
  · have hbounds' := toNat_of_isLower hlower
    omega

theorem Parsed.isPlain {words : Words} (h : words.Parsed) (hascii : words.StartsAscii) :
  ∀ part ∈ words.parts, IsPlain part
  := by
  intro part hpart
  refine ⟨(h.not_mem isForeign_underscore part hpart).1,
    hascii part hpart, ?_⟩
  intro c hc
  by_contra hcapital
  apply (h.not_mem (isForeign_capital (by simpa using hcapital)) part hpart).2 hc

/-- A small ASCII letter has its own capital, and other ASCII characters stay what they are. -/
theorem upper_ascii {c : Char} (hascii : c.toNat < 128) (hsmall : c.isUpper = false) :
  if Text.isLower c = true then
    upper c = [c.toUpper] ∧ c.toUpper.isUpper = true ∧ c.toUpper.toLower = c
  else upper c = [c]
  := by
  revert hsmall
  apply forall_ascii _ hascii
  decide +kernel

/-- A text without capitals belongs to the open word. -/
theorem uncapitalize_append {text : List Char} (h : ∀ c ∈ text, c.isUpper = false)
    (word rest : List Char) :
  uncapitalize word (text ++ rest) = uncapitalize (word ++ text) rest
  := by
  induction text generalizing word with
  | nil => simp
  | cons c text ih =>
      have hc : ¬c.isUpper = true := by simp [h c List.mem_cons_self]
      rw [List.cons_append, uncapitalize, if_neg hc, ih fun b hb => h b (List.mem_cons_of_mem _ hb),
        List.append_assoc, List.singleton_append]

/-- Capitals show the words up to those that start with none. -/
theorem uncapitalize_capitalize {parts : List (List Char)} (h : ∀ part ∈ parts, IsPlain part)
    (word : List Char) :
  uncapitalize word (parts.map capitalize).flatten = glueFrom word parts
  := by
  induction parts generalizing word with
  | nil => rfl
  | cons part rest ih =>
      have hrest := ih fun other hother => h other (List.mem_cons_of_mem _ hother)
      obtain ⟨hne, hascii, hsmall⟩ := h part List.mem_cons_self
      obtain ⟨c, cs, rfl⟩ := List.exists_cons_of_ne_nil hne
      have hupper := upper_ascii (by simpa using hascii) (hsmall c List.mem_cons_self)
      have hcs := uncapitalize_append fun b hb => hsmall b (List.mem_cons_of_mem c hb)
      rw [List.map_cons, List.flatten_cons, capitalize, glueFrom]
      by_cases hlower : Text.isLower c = true
      · rw [if_pos hlower] at hupper
        obtain ⟨hupper, hcapital, hback⟩ := hupper
        rw [if_pos (show startsLower (c :: cs) = true from hlower), hupper, List.singleton_append,
          List.cons_append, uncapitalize, if_pos hcapital, hback, hcs, hrest]
        rfl
      · rw [if_neg hlower] at hupper
        have hc : ¬c.isUpper = true := by simp [hsmall c List.mem_cons_self]
        rw [if_neg (show ¬startsLower (c :: cs) = true from hlower), hupper, List.singleton_append,
          List.cons_append, uncapitalize, if_neg hc, hcs, hrest, List.append_assoc,
          List.singleton_append]

theorem flatten_capitalize_close (word : List Char) (rest : List (List Char)) :
  ((close word rest).map capitalize).flatten = capitalize word ++ (rest.map capitalize).flatten
  := by
  cases word <;> rfl

/-- Putting words together that start with no small letter changes nothing in Pascal case. -/
theorem capitalize_glueFrom {parts : List (List Char)} (h : ∀ part ∈ parts, IsPlain part)
    (word : List Char) :
  ((glueFrom word parts).map capitalize).flatten
    = capitalize word ++ (parts.map capitalize).flatten
  := by
  induction parts generalizing word with
  | nil => apply flatten_capitalize_close
  | cons part rest ih =>
      have hrest := ih fun other hother => h other (List.mem_cons_of_mem _ hother)
      obtain ⟨hne, hascii, hsmall⟩ := h part List.mem_cons_self
      obtain ⟨c, cs, rfl⟩ := List.exists_cons_of_ne_nil hne
      have hupper := upper_ascii (by simpa using hascii) (hsmall c List.mem_cons_self)
      rw [List.map_cons, List.flatten_cons, glueFrom]
      split
      case isTrue => rw [flatten_capitalize_close, hrest]
      case isFalse hlower =>
        rw [if_neg (show ¬Text.isLower c = true from hlower)] at hupper
        have hpart : capitalize (word ++ c :: cs) = capitalize word ++ capitalize (c :: cs) := by
          cases word with
          | nil => rfl
          | cons b bs => simp [capitalize, hupper]
        rw [hrest, hpart, List.append_assoc]

theorem renderChars_pascal (words : Words) :
  words.renderChars .pascal = (words.parts.map capitalize).flatten
  := by
  have hjoin : ∀ texts : List (List Char), ([] : List Char).intercalate texts = texts.flatten := by
    intro texts
    induction texts with
    | nil => rfl
    | cons text rest ih => cases rest <;> simp_all [List.intercalate_cons_cons]
  apply hjoin

/-- Two names whose words start with ASCII characters are the same in Pascal case exactly if they
are the same once the words that start with no small letter are put together with those before
them. -/
theorem pascalCase_eq_iff {words other : Words} (h : words.Parsed) (h' : other.Parsed)
    (hascii : words.StartsAscii) (hascii' : other.StartsAscii) :
  words.pascalCase = other.pascalCase ↔ words.glue = other.glue
  := by
  have hplain := h.isPlain hascii
  have hplain' := h'.isPlain hascii'
  rw [pascalCase, pascalCase, render, render, String.ofList_inj, renderChars_pascal,
    renderChars_pascal]
  constructor
  · intro heq
    rw [glue, glue, ← uncapitalize_capitalize hplain, ← uncapitalize_capitalize hplain', heq]
  · intro heq
    have hparts : glueFrom [] words.parts = glueFrom [] other.parts := congrArg Words.parts heq
    have hwords := capitalize_glueFrom hplain []
    rw [hparts, capitalize_glueFrom hplain' []] at hwords
    apply hwords.symm

end ServiceBindings.Words
