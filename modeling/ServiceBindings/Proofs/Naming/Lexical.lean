import ServiceBindings.Proofs.Naming.Words

/-!
# Identifiers that can be read

The generated code is read again by a compiler, which takes a text for an identifier if it is
spelled like one and is no keyword, or if it has the mark of raw identifiers and is not one of the
few keywords that cannot have it.  The names that are made of a text of ASCII letters, digits and
separators are such identifiers whatever their convention, unless the text has nothing but
separators.
-/

namespace ServiceBindings

/-! ### What an identifier is -/

namespace Identifier

/-- The keywords that mean something. -/
def strictKeywords : List String := [
  "as", "async", "await", "break", "const", "continue", "crate", "dyn", "else", "enum", "extern",
  "false", "fn", "for", "if", "impl", "in", "let", "loop", "match", "mod", "move", "mut", "pub",
  "ref", "return", "self", "Self", "static", "struct", "super", "trait", "true", "type", "unsafe",
  "use", "where", "while"]

/-- The keywords that are kept for later. -/
def reservedKeywords : List String := [
  "abstract", "become", "box", "do", "final", "gen", "macro", "override", "priv", "try", "typeof",
  "unsized", "virtual", "yield"]

/-- Whether a character may stand in an identifier of ASCII characters. -/
def isWordChar (c : Char) : Bool :=
  c.isAlphanum || c == '_'

theorem isWordChar_of_isAlphanum {c : Char} (h : c.isAlphanum = true) : isWordChar c = true := by
  rw [isWordChar, h, Bool.true_or]

/-- Whether a text is spelled like an identifier of ASCII characters: it starts with a letter, or
with an underscore that does not stand alone. -/
def isSpelling : List Char → Bool
  | [] => false
  | c :: cs => (c.isAlpha || c == '_' && !cs.isEmpty) && cs.all isWordChar

/-- Whether a text can be read as an identifier. -/
inductive IsIdentifier : String → Prop where
  | plain {name : String} (hspelling : isSpelling name.toList = true)
      (hkeyword : name ∉ strictKeywords ++ reservedKeywords) : IsIdentifier name
  | raw {name : String} (hspelling : isSpelling name.toList = true)
      (hpath : name ∉ ["self", "Self", "super", "crate"]) : IsIdentifier ("r#" ++ name)

theorem isWordChar_of_isSpelling {cs : List Char} (h : isSpelling cs = true) {x : Char}
    (hx : x ∈ cs) :
  isWordChar x = true
  := by
  cases cs with
  | nil => cases hx
  | cons c cs =>
      simp only [isSpelling, Bool.and_eq_true, List.all_eq_true] at h
      obtain ⟨hfirst, hrest⟩ := h
      rcases List.mem_cons.mp hx with rfl | hx
      · rcases (Bool.or_eq_true _ _).mp hfirst with hletter | hunderscore
        · apply isWordChar_of_isAlphanum
          rw [Char.isAlphanum, hletter, Bool.true_or]
        · simp [isWordChar, (Bool.and_eq_true _ _).mp hunderscore]
      · apply hrest x hx

/-- An identifier has nothing but letters, digits, underscores and the mark. -/
theorem IsIdentifier.not_mem {name : String} (h : IsIdentifier name) {x : Char}
    (hx : isWordChar x = false) (hmark : x ≠ '#') :
  x ∉ name.toList
  := by
  intro hmem
  cases h with
  | plain hspelling =>
      rw [isWordChar_of_isSpelling hspelling hmem] at hx
      cases hx
  | @raw name hspelling =>
      rw [String.toList_append, List.mem_append] at hmem
      rcases hmem with hmem | hmem
      · obtain rfl : x = 'r' := by simpa [hmark] using hmem
        cases hx
      · rw [isWordChar_of_isSpelling hspelling hmem] at hx
        cases hx

theorem not_isIdentifier_empty : ¬IsIdentifier "" := by
  generalize hname : "" = name
  intro h
  cases h with
  | plain hspelling =>
      rw [← hname] at hspelling
      cases hspelling
  | raw => simpa using congrArg String.toList hname

/-! ### Escaping -/

/-- Whether a text has the characters of an identifier and starts with a letter or a digit. -/
inductive IsStem : List Char → Prop where
  | intro {c : Char} {cs : List Char} (hfirst : c.isAlphanum = true)
      (hrest : ∀ d ∈ cs, isWordChar d = true) : IsStem (c :: cs)

theorem IsStem.isWordChar {cs : List Char} (h : IsStem cs) : ∀ c ∈ cs, isWordChar c = true := by
  obtain ⟨hfirst, hrest⟩ := h
  rw [List.forall_mem_cons]
  exact ⟨isWordChar_of_isAlphanum hfirst, hrest⟩

theorem IsStem.isSpelling_underscore {cs : List Char} (h : IsStem cs) :
  isSpelling ('_' :: cs) = true
  := by
  have hall : cs.all Identifier.isWordChar = true := List.all_eq_true.mpr h.isWordChar
  rw [isSpelling, hall]
  cases h
  rfl

/-- A stem without a digit in front is spelled like an identifier. -/
theorem IsStem.isSpelling {name : String} (h : IsStem name.toList)
    (hdigit : ¬startsWithDigit name = true) :
  isSpelling name.toList = true
  := by
  rw [startsWithDigit] at hdigit
  generalize name.toList = cs at h hdigit
  cases h with
  | @intro c cs hfirst hrest =>
      have hdigit : c.isDigit = false := Bool.eq_false_iff.mpr hdigit
      rw [Char.isAlphanum, hdigit, Bool.or_false] at hfirst
      rw [Identifier.isSpelling, hfirst, List.all_eq_true.mpr hrest]
      rfl

/-- Every keyword is escaped. -/
theorem mem_of_isKeyword {name : String}
    (h : name ∈ strictKeywords ++ reservedKeywords) :
  name ∈ pathKeywords ∨ name ∈ keywords
  := by
  have hall : ∀ word ∈ strictKeywords ++ reservedKeywords,
      word ∈ pathKeywords ∨ word ∈ keywords := by decide +kernel
  apply hall name h

/-- Escaping makes an identifier of every stem. -/
theorem isIdentifier_escape {name : String} (h : IsStem name.toList) :
  IsIdentifier (escape name)
  := by
  unfold escape
  split
  case isTrue hpath =>
    have hall : ∀ word ∈ pathKeywords, isSpelling (word ++ "_").toList = true
        ∧ word ++ "_" ∉ strictKeywords ++ reservedKeywords := by decide
    obtain ⟨hspelling, hkeyword⟩ := hall name hpath
    apply IsIdentifier.plain hspelling hkeyword
  case isFalse hpath =>
    split
    case isTrue hkeyword =>
      have hall : ∀ word ∈ keywords, isSpelling word.toList = true
          ∧ word ∉ ["self", "Self", "super", "crate"] := by decide +kernel
      obtain ⟨hspelling, hself⟩ := hall name hkeyword
      apply IsIdentifier.raw hspelling hself
    case isFalse hkeyword =>
      split
      case isTrue =>
        -- The underscore in front of the digit is not alone, and no keyword starts with one.
        have hall : ∀ word ∈ strictKeywords ++ reservedKeywords,
            word.toList.head? ≠ some '_' := by decide
        apply IsIdentifier.plain
        · rw [String.toList_append]
          apply h.isSpelling_underscore
        · intro hmem
          apply hall _ hmem
          simp
      case isFalse hdigit =>
        apply IsIdentifier.plain (h.isSpelling hdigit)
        intro hmem
        rcases mem_of_isKeyword hmem with hmem | hmem
        · apply hpath hmem
        · apply hkeyword hmem

end Identifier

/-! ### ASCII letters and digits -/

namespace Text

open Identifier

theorem ascii_of_isAlphanum {c : Char} (h : c.isAlphanum = true) : c.toNat < 128 := by
  rcases (Bool.or_eq_true _ _).mp h with hletter | hdigit
  · rcases (Bool.or_eq_true _ _).mp hletter with hupper | hlower
    · have hbounds := toNat_of_isUpper hupper
      omega
    · have hbounds := toNat_of_isLower hlower
      omega
  · obtain ⟨-, hlast⟩ := (Bool.and_eq_true _ _).mp hdigit
    have hbound : c.toNat ≤ 57 := of_decide_eq_true hlast
    omega

/-- What holds of the letters and digits among the first code points holds of all of them. -/
theorem forall_alphanum {property : Char → Prop}
    (h : ∀ n < 128, (Char.ofNat n).isAlphanum = true → property (Char.ofNat n)) {c : Char}
    (hc : c.isAlphanum = true) :
  property c
  := by
  revert hc
  by_cases hascii : c.toNat < 128
  · apply forall_ascii h hascii
  · intro hc
    apply absurd (ascii_of_isAlphanum hc) hascii

/-- Letters and digits separate no words. -/
theorem isSeparator_of_isAlphanum {c : Char} (h : c.isAlphanum = true) :
  Words.isSeparator c = false
  := by
  apply forall_alphanum _ h
  decide +kernel

/-- Letters and digits stay such in lower case. -/
theorem isAlphanum_of_mem_lower {c x : Char} (h : c.isAlphanum = true) (hx : x ∈ lower c) :
  x.isAlphanum = true
  := by
  have hall : (lower c).all Char.isAlphanum = true := by
    apply forall_alphanum _ h
    decide +kernel
  apply List.all_eq_true.mp hall x hx

/-- Letters and digits stay such in upper case. -/
theorem isAlphanum_of_mem_upper {c x : Char} (h : c.isAlphanum = true) (hx : x ∈ upper c) :
  x.isAlphanum = true
  := by
  have hall : (upper c).all Char.isAlphanum = true := by
    apply forall_alphanum _ h
    decide +kernel
  apply List.all_eq_true.mp hall x hx

theorem isWordChar_of_mem_upper {c x : Char} (h : isWordChar c = true) (hx : x ∈ upper c) :
  isWordChar x = true
  := by
  rcases (Bool.or_eq_true _ _).mp h with hletter | hunderscore
  · apply isWordChar_of_isAlphanum (isAlphanum_of_mem_upper hletter hx)
  · obtain rfl : c = '_' := by simpa using hunderscore
    obtain rfl : x = '_' := List.mem_singleton.mp hx
    rfl

end Text

/-! ### Words of letters and digits -/

namespace Words

open Text Identifier

/-- Whether each word has characters, and letters and digits only. -/
def IsAlphanumeric (parts : List (List Char)) : Prop :=
  ∀ part ∈ parts, part ≠ [] ∧ ∀ c ∈ part, c.isAlphanum = true

/-- Words with the characters of an identifier between them are a stem. -/
theorem IsAlphanumeric.isStem {parts : List (List Char)} (h : IsAlphanumeric parts)
    (hparts : parts ≠ []) {separator : List Char}
    (hseparator : ∀ c ∈ separator, isWordChar c = true) :
  IsStem (separator.intercalate parts)
  := by
  have hall : ∀ c ∈ separator.intercalate parts, isWordChar c = true := by
    intro c hc
    rcases mem_of_mem_intercalate hc with hc | ⟨part, hpart, hc⟩
    · apply hseparator c hc
    · apply isWordChar_of_isAlphanum ((h part hpart).2 c hc)
  obtain ⟨part, rest, rfl⟩ := List.exists_cons_of_ne_nil hparts
  obtain ⟨hne, hletters⟩ := h part List.mem_cons_self
  obtain ⟨c, cs, rfl⟩ := List.exists_cons_of_ne_nil hne
  -- The first character is that of the first word, whether or not others follow.
  obtain ⟨tail, htail⟩ : ∃ tail, separator.intercalate ((c :: cs) :: rest) = c :: tail := by
    cases rest with
    | nil => exact ⟨cs, List.intercalate_singleton⟩
    | cons next rest => exact ⟨_, by rw [List.intercalate_cons_cons, List.cons_append]; rfl⟩
  rw [htail] at hall ⊢
  apply IsStem.intro (hletters c List.mem_cons_self)
  intro d hd
  apply hall d (List.mem_cons_of_mem c hd)

theorem IsAlphanumeric.capitalize {parts : List (List Char)} (h : IsAlphanumeric parts) :
  IsAlphanumeric (parts.map capitalize)
  := by
  intro part hpart
  obtain ⟨word, hword, rfl⟩ := List.mem_map.mp hpart
  obtain ⟨hne, hletters⟩ := h word hword
  obtain ⟨c, cs, rfl⟩ := List.exists_cons_of_ne_nil hne
  rw [List.forall_mem_cons] at hletters
  refine ⟨by simp [Words.capitalize, upper_ne_nil], ?_⟩
  intro x hx
  rcases List.mem_append.mp hx with hx | hx
  · apply isAlphanum_of_mem_upper hletters.1 hx
  · apply hletters.2 x hx

/-- A stem stays one in upper case. -/
theorem isStem_upper {cs : List Char} (h : IsStem cs) : IsStem (cs.flatMap upper) := by
  cases h with
  | @intro c cs hfirst hrest =>
      obtain ⟨first, more, hupper⟩ := List.exists_cons_of_ne_nil (upper_ne_nil c)
      have hletters : ∀ x ∈ first :: more, x.isAlphanum = true := by
        rw [← hupper]
        intro x hx
        apply isAlphanum_of_mem_upper hfirst hx
      rw [List.flatMap_cons, hupper, List.cons_append]
      apply IsStem.intro (hletters first List.mem_cons_self)
      intro x hx
      rcases List.mem_append.mp hx with hx | hx
      · apply isWordChar_of_isAlphanum (hletters x (List.mem_cons_of_mem first hx))
      · obtain ⟨d, hd, hx⟩ := List.mem_flatMap.mp hx
        apply isWordChar_of_mem_upper (hrest d hd) hx

end Words

/-! ### Names -/

namespace Identifier

open Text

/-- Whether a text has ASCII letters, ASCII digits and separators only. -/
def IsPlainText (text : String) : Prop :=
  ∀ c ∈ text.toList,
    c.isAlphanum = true ∨ c ∈ [':', '_', '-', '.', '/'] ∨ isBlank c = true

instance (text : String) : Decidable (IsPlainText text) :=
  List.decidableBAll _ text.toList

theorem IsPlainText.isAlphanum {text : String} (h : IsPlainText text) {c : Char}
    (hc : c ∈ text.toList) (hclear : Words.isSeparator c = false) :
  c.isAlphanum = true
  := by
  apply (h c hc).resolve_right
  rintro (hmark | hblank)
  · have hall : [':', '_', '-', '.', '/'].all Words.isSeparator = true := rfl
    rw [List.all_eq_true.mp hall c hmark] at hclear
    cases hclear
  · simp [Words.isSeparator, hblank] at hclear

/-- The words of such a text have letters and digits only. -/
theorem IsPlainText.isAlphanumeric {text : String} (h : IsPlainText text) :
  Words.IsAlphanumeric (Words.parse text).parts
  := by
  intro part hpart
  refine ⟨Words.ne_nil_of_mem_parts hpart, ?_⟩
  intro x hx
  obtain ⟨c, hc, hclear, hx⟩ := Words.exists_of_mem_parts hpart hx
  apply isAlphanum_of_mem_lower (h.isAlphanum hc hclear) hx

/-- There are no words only if there are neither letters nor digits. -/
theorem IsPlainText.parts_ne_nil_iff {text : String} (h : IsPlainText text) :
  (Words.parse text).parts ≠ [] ↔ ∃ c ∈ text.toList, c.isAlphanum = true
  := by
  constructor
  · intro hparts
    obtain ⟨part, rest, hpart⟩ := List.exists_cons_of_ne_nil hparts
    have hmem : part ∈ (Words.parse text).parts := by
      rw [hpart]
      apply List.mem_cons_self
    obtain ⟨x, hx⟩ := List.exists_mem_of_ne_nil part (Words.ne_nil_of_mem_parts hmem)
    obtain ⟨c, hc, hclear, -⟩ := Words.exists_of_mem_parts hmem hx
    exact ⟨c, hc, h.isAlphanum hc hclear⟩
  · rintro ⟨c, hc, hletter⟩
    apply Words.parts_ne_nil_of_mem hc (isSeparator_of_isAlphanum hletter)

/-- If there are words, then each way to write them gives an identifier. -/
theorem IsPlainText.isIdentifier {text name : String} (h : IsPlainText text)
    (hparts : (Words.parse text).parts ≠ [])
    (hname : name ∈ [valueName text, typeName text, constName text]) :
  IsIdentifier name
  := by
  have hwords := h.isAlphanumeric
  have hsnake : IsStem ((Words.parse text).renderChars .snake) :=
    hwords.isStem hparts (by simp [Convention.separator, isWordChar])
  have hpascal : IsStem ((Words.parse text).renderChars .pascal) :=
    hwords.capitalize.isStem (by simpa using hparts) (by simp [Convention.separator])
  rcases List.mem_cons.mp hname with rfl | hname
  · apply isIdentifier_escape
    rw [snakeCase, Words.snakeCase, Words.render, String.toList_ofList]
    apply hsnake
  rcases List.mem_cons.mp hname with rfl | hname
  · apply isIdentifier_escape
    rw [pascalCase, Words.pascalCase, Words.render, String.toList_ofList]
    apply hpascal
  · rw [List.mem_singleton.mp hname]
    apply isIdentifier_escape
    rw [upperSnakeCase, Words.upperSnakeCase, Words.renderCapitals, String.toList_ofList]
    apply Words.isStem_upper hsnake

theorem eq_empty_of_parts_eq_nil {text name : String} (h : (Words.parse text).parts = [])
    (hname : name ∈ [valueName text, typeName text, constName text]) :
  name = ""
  := by
  have hwords : Words.parse text = ⟨[]⟩ := congrArg Words.mk h
  have hnames : [valueName text, typeName text, constName text] = ["", "", ""] := by
    rw [valueName, typeName, constName, snakeCase, pascalCase, upperSnakeCase, hwords]
    decide
  simpa [hnames] using hname

/-- The names of a text of ASCII letters, digits and separators are identifiers exactly if the text
has a letter or a digit, and they never have a colon or a slash. -/
theorem isIdentifier_names {text : String} (h : IsPlainText text) :
  ∀ name ∈ [valueName text, typeName text, constName text],
    (IsIdentifier name ↔ ∃ c ∈ text.toList, c.isAlphanum = true)
      ∧ ':' ∉ name.toList ∧ '/' ∉ name.toList
  := by
  intro name hname
  rw [← h.parts_ne_nil_iff]
  by_cases hparts : (Words.parse text).parts = []
  · rw [eq_empty_of_parts_eq_nil hparts hname]
    exact ⟨by simp [hparts, not_isIdentifier_empty], by simp, by simp⟩
  · have hidentifier := h.isIdentifier hparts hname
    refine ⟨by simp [hparts, hidentifier], ?_, ?_⟩
    · apply hidentifier.not_mem rfl (by decide)
    · apply hidentifier.not_mem rfl (by decide)

/-- A keyword, a keyword that cannot be raw, and a text with a digit in front. -/
theorem isIdentifier_names_escaped :
  IsPlainText "type" ∧ IsPlainText "self" ∧ IsPlainText "2fa code/v1"
    ∧ IsIdentifier "r#type" ∧ IsIdentifier "Self_" ∧ IsIdentifier "_2FA_CODE_V1"
    ∧ '/' ∉ "_2FA_CODE_V1".toList
  := by
  have htype : IsPlainText "type" := by decide
  have hself : IsPlainText "self" := by decide
  have hcode : IsPlainText "2fa code/v1" := by decide
  obtain ⟨hvalue, -, -⟩ := isIdentifier_names htype "r#type" (by decide)
  obtain ⟨hpascal, -, -⟩ := isIdentifier_names hself "Self_" (by decide)
  obtain ⟨hconst, -, hslash⟩ := isIdentifier_names hcode "_2FA_CODE_V1" (by decide)
  refine ⟨htype, hself, hcode, hvalue.mpr ?_, hpascal.mpr ?_, hconst.mpr ?_, hslash⟩
  · exact ⟨'t', by decide, rfl⟩
  · exact ⟨'s', by decide, rfl⟩
  · exact ⟨'2', by decide, rfl⟩

end Identifier

end ServiceBindings
