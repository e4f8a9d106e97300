import ServiceBindings.Proofs.Naming.Pieces

/-!
# Words that are cut again

A text without capitals and separators that is its own lower case is a single word.  The words of an
identifier are such texts unless one of its characters has an odd lower case, as no ASCII character
has.  So words that are written with separators between them are found again, and an identifier that
is written like that a second time stays what it is.
-/

namespace ServiceBindings

namespace Words

open Text

/-! ### Settled texts -/

/-- Whether a text has no capitals and no separators and is its own lower case. -/
structure IsSettled (cs : List Char) : Prop where
  no_upper : ∀ c ∈ cs, isUpper c = false
  no_separator : ∀ c ∈ cs, isSeparator c = false
  lower_self : cs.flatMap lower = cs

theorem length_le_flatMap_lower (cs : List Char) : cs.length ≤ (cs.flatMap lower).length := by
  induction cs with
  | nil => apply Nat.le_refl
  | cons c cs ih =>
      have hpos := List.length_pos_of_ne_nil (lower_ne_nil c)
      rw [List.flatMap_cons, List.length_append, List.length_cons]
      omega

/-- A text is its own lower case only if each of its characters is. -/
theorem lower_eq_singleton {cs : List Char} (h : cs.flatMap lower = cs) :
  ∀ c ∈ cs, lower c = [c]
  := by
  induction cs with
  | nil => apply List.forall_mem_nil
  | cons c cs ih =>
      -- The other characters take up at least their own length, which leaves one for the first.
      have hlength := congrArg List.length h
      have hrest := length_le_flatMap_lower cs
      obtain ⟨first, more, hlower⟩ := List.exists_cons_of_ne_nil (lower_ne_nil c)
      rw [List.flatMap_cons, hlower] at h hlength
      obtain rfl : more = [] := by
        rw [← List.length_eq_zero_iff]
        simp only [List.length_append, List.length_cons] at hlength
        omega
      obtain ⟨rfl, hcs⟩ := List.cons.inj h
      rw [List.forall_mem_cons]
      exact ⟨hlower, ih hcs⟩

theorem isSettled_iff {cs : List Char} :
  IsSettled cs ↔ ∀ c ∈ cs, isUpper c = false ∧ isSeparator c = false ∧ lower c = [c]
  := by
  constructor
  · intro h c hc
    exact ⟨h.no_upper c hc, h.no_separator c hc, lower_eq_singleton h.lower_self c hc⟩
  · intro h
    refine ⟨fun c hc => (h c hc).1, fun c hc => (h c hc).2.1, ?_⟩
    rw [List.flatMap_congr fun c hc => (h c hc).2.2, List.flatMap_singleton']

instance (cs : List Char) : Decidable (IsSettled cs) :=
  @decidable_of_iff _ _ isSettled_iff.symm (List.decidableBAll _ cs)

/-- A settled text belongs to the open word. -/
theorem IsSettled.cut_append {text : List Char} (h : IsSettled text) (word : List Char)
    (inRun : Bool) (rest : List Char) :
  cut word inRun (text ++ rest) = cut (word ++ text) (inRun && text.isEmpty) rest
  := by
  rw [isSettled_iff] at h
  induction text generalizing word inRun with
  | nil => simp
  | cons c text ih =>
      obtain ⟨hupper, hseparator, hlower⟩ := h c List.mem_cons_self
      rw [List.cons_append, cut, if_neg (by simp [hseparator]), if_neg (by simp [hupper]), hlower,
        ih fun b hb => h b (List.mem_cons_of_mem c hb)]
      simp

/-- A settled text is a single word. -/
theorem IsSettled.cut_eq {text : List Char} (h : IsSettled text) (hne : text ≠ []) :
  cut [] false text = [text]
  := by
  have hcut := h.cut_append [] false []
  rw [List.append_nil, List.nil_append] at hcut
  rw [hcut, cut, close, if_neg (by simpa using hne)]

/-! ### Separators -/

/-- Separators close the open word. -/
theorem cut_separators {separator : List Char} (h : ∀ c ∈ separator, isSeparator c = true)
    (hne : separator ≠ []) (word : List Char) (inRun : Bool) (rest : List Char) :
  cut word inRun (separator ++ rest) = close word (cut [] false rest)
  := by
  induction separator generalizing word inRun with
  | nil => apply absurd rfl hne
  | cons c separator ih =>
      obtain ⟨hc, hseparator⟩ := List.forall_mem_cons.mp h
      rw [List.cons_append, cut_separator hc]
      by_cases hnil : separator = []
      · rw [hnil, List.nil_append]
      · rw [ih hseparator hnil]
        rfl

/-- Settled words with separators between them are found again. -/
theorem cut_intercalate {separator : List Char} (h : ∀ c ∈ separator, isSeparator c = true)
    (hne : separator ≠ []) {parts : List (List Char)}
    (hparts : ∀ part ∈ parts, part ≠ [] ∧ IsSettled part) :
  cut [] false (separator.intercalate parts) = parts
  := by
  induction parts with
  | nil => rfl
  | cons part rest ih =>
      obtain ⟨⟨hpart, hsettled⟩, hrest⟩ := List.forall_mem_cons.mp hparts
      cases rest with
      | nil => rw [List.intercalate_singleton, hsettled.cut_eq hpart]
      | cons next rest =>
          rw [List.intercalate_cons_cons, List.append_assoc, hsettled.cut_append, List.nil_append,
            cut_separators h hne, ih hrest, close, if_neg (by simpa using hpart)]

end Words

/-- The conventions that put separators between words. -/
def Convention.separated : List Convention :=
  [.snake, .kebab, .dot, .path, .scope, .space]

namespace Words

open Text

theorem separator_of_mem_separated {convention : Convention}
    (h : convention ∈ Convention.separated) :
  convention.separator ≠ [] ∧ ∀ c ∈ convention.separator, isSeparator c = true
  := by
  rw [← List.all_eq_true]
  revert convention
  decide

theorem styled_of_mem_separated {convention : Convention}
    (h : convention ∈ Convention.separated) (parts : List (List Char)) :
  styled convention parts = parts
  := by
  fun_cases styled convention parts with
  | case1 => simp [Convention.separated] at h
  | case2 => simp [Convention.separated] at h
  | case3 => rfl

/-! ### Identifiers -/

/-- Whether the lower case of each character but the separators is settled. -/
def IsRegular (identifier : String) : Prop :=
  ∀ c ∈ identifier.toList, isSeparator c = false → IsSettled (lower c)

instance (identifier : String) : Decidable (IsRegular identifier) :=
  List.decidableBAll _ identifier.toList

/-- Whether an identifier has ASCII characters only. -/
def IsAscii (identifier : String) : Prop :=
  ∀ c ∈ identifier.toList, c.toNat < 128

instance (identifier : String) : Decidable (IsAscii identifier) :=
  List.decidableBAll _ identifier.toList

theorem IsAscii.isRegular {identifier : String} (h : IsAscii identifier) :
  IsRegular identifier
  := by
  intro c hc
  apply forall_ascii _ (h c hc)
  decide +kernel

/-- The words of a regular identifier are settled. -/
theorem IsRegular.isSettled {identifier : String} (h : IsRegular identifier) {part : List Char}
    (hpart : part ∈ (parse identifier).parts) :
  IsSettled part
  := by
  rw [isSettled_iff]
  intro x hx
  obtain ⟨c, hc, hclear, hx⟩ := exists_of_mem_parts hpart hx
  apply isSettled_iff.mp (h c hc hclear) x hx

theorem IsRegular.parse_render {identifier : String} (h : IsRegular identifier)
    {convention : Convention} (hconvention : convention ∈ Convention.separated) :
  parse ((parse identifier).render convention) = parse identifier
  := by
  obtain ⟨hne, hseparator⟩ := separator_of_mem_separated hconvention
  have hparts : ∀ part ∈ (parse identifier).parts, part ≠ [] ∧ IsSettled part :=
    fun part hpart => ⟨ne_nil_of_mem_parts hpart, h.isSettled hpart⟩
  rw [parse, render, String.toList_ofList, renderChars, styled_of_mem_separated hconvention,
    cut_intercalate hseparator hne hparts]

/-- Words that are written with separators between them are found again if the identifier is
regular, as each one of ASCII characters is.  Writing it like that twice is the same as doing it
once. -/
theorem parse_render_separated (identifier : String) :
  (IsAscii identifier → IsRegular identifier)
    ∧ (IsRegular identifier →
      (∀ convention ∈ Convention.separated,
        parse ((parse identifier).render convention) = parse identifier)
      ∧ ServiceBindings.snakeCase (ServiceBindings.snakeCase identifier)
        = ServiceBindings.snakeCase identifier
      ∧ (parse (parse identifier).kebabCase).kebabCase = (parse identifier).kebabCase)
  := by
  refine ⟨IsAscii.isRegular, ?_⟩
  intro h
  refine ⟨fun convention => h.parse_render, ?_, ?_⟩
  · exact congrArg snakeCase (h.parse_render (by decide))
  · exact congrArg kebabCase (h.parse_render (by decide))

theorem parse_render_separated_response :
  IsAscii "HTTPResponse-v2" ∧ IsRegular "\u00c9tat_CivilID"
    ∧ parse ((parse "HTTPResponse-v2").render .scope) = parse "HTTPResponse-v2"
    ∧ parse ((parse "\u00c9tat_CivilID").render .dot) = parse "\u00c9tat_CivilID"
  := by
  have hascii : IsAscii "HTTPResponse-v2" := by decide
  have hregular : IsRegular "\u00c9tat_CivilID" := by decide
  obtain ⟨hresponse, hrender⟩ := parse_render_separated "HTTPResponse-v2"
  refine ⟨hascii, hregular, ?_, ?_⟩
  · apply (hrender (hresponse hascii)).1 .scope (by decide)
  · apply ((parse_render_separated "\u00c9tat_CivilID").2 hregular).1 .dot (by decide)

/-- A capital that is its own lower case can stand within a word, and it starts one when that word
is cut again. -/
example : ¬IsRegular "A\u03d2" ∧ (parse "A\u03d2").parts.length = 1
    ∧ (parse (parse "A\u03d2").snakeCase).parts.length = 2 := by
  decide

end Words

end ServiceBindings
