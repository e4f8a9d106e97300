import ServiceBindings.Naming.Identifier
import ServiceBindings.Naming.Scope
import ServiceBindings.Proofs.Module.Path
import ServiceBindings.Proofs.Naming.Identifier
import ServiceBindings.Proofs.Naming.Pieces
import ServiceBindings.Proofs.Text.Case
import ServiceBindings.Proofs.Text.Lines

/-!
# Identifiers as names in references

The words of an identifier hold no separators, whatever case they are written in, and an identifier
that would lead to the parent module is escaped.  So the identifiers of modules and of declarations
are names in references as long as they are not empty.
-/

namespace ServiceBindings

/-! ### Case -/

namespace Text

/-- Whether a text has characters and no colon among them. -/
structure IsWord (cs : List Char) : Prop where
  ne_nil : cs ≠ []
  no_colon : ':' ∉ cs

/-- The upper case of a character that is no colon. -/
theorem isWord_upper {c : Char} (h : c ≠ ':') : IsWord (upper c) where
  ne_nil := upper_ne_nil c
  no_colon hcolon := by
    rcases mem_upper hcolon (by decide) (by decide) with ⟨heq, -⟩ | hletter
    · apply h heq.symm
    · cases hletter

end Text

/-! ### Words -/

namespace Words

open Text

/-- Whether each word has characters and no colon among them. -/
def Sound (words : Words) : Prop :=
  ∀ word ∈ words.parts, IsWord word

/-- Whether a character stands in no word. -/
def IsForeign (x : Char) : Prop :=
  ∀ c, isSeparator c = false → x ∉ lower c

/-- An ASCII separator stands in no word. -/
theorem isForeign_of_isSeparator {x : Char} (hx : isSeparator x = true) (hsmall : x.isLower = false)
    (hpos : 0 < x.toNat) (hascii : x.toNat < 128) :
  IsForeign x
  := by
  intro c hc hmem
  rcases mem_lower hmem hpos hascii with ⟨rfl, -⟩ | hletter
  · rw [hx] at hc
    cases hc
  · rw [hsmall] at hletter
    cases hletter

theorem isForeign_colon : IsForeign ':' :=
  isForeign_of_isSeparator rfl rfl (by decide) (by decide)

theorem isForeign_underscore : IsForeign '_' :=
  isForeign_of_isSeparator rfl rfl (by decide) (by decide)

theorem isForeign_blank : IsForeign ' ' :=
  isForeign_of_isSeparator rfl rfl (by decide) (by decide)

theorem isForeign_slash : IsForeign '/' :=
  isForeign_of_isSeparator rfl rfl (by decide) (by decide)

theorem isForeign_dot : IsForeign '.' :=
  isForeign_of_isSeparator rfl rfl (by decide) (by decide)

theorem isForeign_feed : IsForeign '\n' :=
  isForeign_of_isSeparator rfl rfl (by decide) (by decide)

theorem IsForeign.not_mem_parse {x : Char} (hx : IsForeign x) {identifier : String}
    {part : List Char} (hpart : part ∈ (parse identifier).parts) :
  part ≠ [] ∧ x ∉ part
  := by
  use ne_nil_of_mem_parts hpart
  intro hmem
  obtain ⟨c, -, hclear, hmem⟩ := exists_of_mem_parts hpart hmem
  apply hx c hclear hmem

theorem sound_parse (identifier : String) : (parse identifier).Sound := by
  intro part hpart
  obtain ⟨hne, hcolon⟩ := isForeign_colon.not_mem_parse hpart
  exact ⟨hne, hcolon⟩

/-- Whether each word is one of an identifier. -/
def Parsed (words : Words) : Prop :=
  ∀ part ∈ words.parts, ∃ identifier, part ∈ (parse identifier).parts

namespace Parsed

theorem parse (identifier : String) : (Words.parse identifier).Parsed :=
  fun _ hpart => ⟨identifier, hpart⟩

theorem ofComponents (components : List String) : (Words.ofComponents components).Parsed := by
  intro part hpart
  obtain ⟨component, -, hpart⟩ := List.mem_flatMap.mp hpart
  use component

theorem join {words other : Words} (h : words.Parsed) (h' : other.Parsed) :
  (words.join other).Parsed
  := by
  intro part hpart
  rcases List.mem_append.mp hpart with hpart | hpart
  · apply h part hpart
  · apply h' part hpart

theorem sound {words : Words} (h : words.Parsed) : words.Sound := by
  intro part hpart
  obtain ⟨identifier, hpart⟩ := h part hpart
  apply sound_parse identifier part hpart

end Parsed

theorem isWord_capitalize {word : List Char} (h : IsWord word) : IsWord (capitalize word) := by
  cases word with
  | nil => apply absurd rfl h.ne_nil
  | cons c cs =>
      have hcolon := h.no_colon
      rw [List.mem_cons, not_or] at hcolon
      obtain ⟨hc, hcs⟩ := hcolon
      have hupper := isWord_upper fun heq => hc heq.symm
      constructor
      · simp [capitalize, hupper.ne_nil]
      · rw [capitalize, List.mem_append, not_or]
        use hupper.no_colon, hcs

/-- Sound words that are not all missing are a word if they are written without separators. -/
theorem Sound.isWord_pascal {words : Words} (h : words.Sound) (hne : words.isEmpty = false) :
  IsWord words.pascalCase.toList
  := by
  have hstyled : ∀ part ∈ words.parts.map capitalize, IsWord part := by
    intro part hpart
    obtain ⟨word, hword, rfl⟩ := List.mem_map.mp hpart
    apply isWord_capitalize (h word hword)
  obtain ⟨parts⟩ := words
  cases parts with
  | nil => cases hne
  | cons word rest =>
      rw [pascalCase, render, String.toList_ofList]
      constructor
      · have hfirst := (hstyled (capitalize word) List.mem_cons_self).ne_nil
        cases rest <;> simp [renderChars, styled, List.intercalate_cons_cons, hfirst]
      · intro hmem
        rcases mem_of_mem_intercalate hmem with hmem | ⟨part, hpart, hmem⟩
        · cases hmem
        · apply (hstyled part hpart).no_colon hmem

theorem Sound.no_colon_snake {words : Words} (h : words.Sound) :
  ':' ∉ words.snakeCase.toList
  := by
  rw [snakeCase, render, String.toList_ofList]
  intro hmem
  rcases mem_of_mem_intercalate hmem with hmem | ⟨part, hpart, hmem⟩
  · revert hmem
    decide
  · apply (h part hpart).no_colon hmem

/-- In snake case, underscores stand between the words and nothing else. -/
theorem IsForeign.not_mem_snake {x : Char} (hx : IsForeign x) (hne : x ≠ '_')
    (identifier : String) :
  x ∉ (parse identifier).snakeCase.toList
  := by
  rw [snakeCase, render, String.toList_ofList]
  intro hmem
  rcases mem_of_mem_intercalate hmem with hmem | ⟨part, hpart, hmem⟩
  · apply hne (List.mem_singleton.mp hmem)
  · apply (hx.not_mem_parse hpart).2 hmem

end Words

/-! ### Identifiers -/

open ModulePath

namespace Identifier

/-- An escaped identifier does not lead to the parent module. -/
theorem isName_escape {name : String} (hne : name ≠ "") (hcolon : ':' ∉ name.toList) :
  IsName (escape name)
  := by
  unfold escape
  split
  case isTrue hpath =>
    have hall : ∀ word ∈ pathKeywords, word ++ "_" ≠ "super" := by decide
    exact ⟨by simp, hall name hpath, by simpa using hcolon⟩
  case isFalse hpath =>
    have hsuper : name ≠ "super" := by
      rintro rfl
      apply hpath
      decide
    split
    case isTrue hkeyword =>
      have hall : ∀ word ∈ keywords, "r#" ++ word ≠ "super" := by decide
      exact ⟨by simp, hall name hkeyword, by simpa using hcolon⟩
    case isFalse =>
      split
      case isTrue =>
        refine ⟨by simp, ?_, by simpa using hcolon⟩
        intro heq
        simpa using congrArg String.toList heq
      case isFalse => exact ⟨hne, hsuper, hcolon⟩

/-- A character of an escaped identifier is one of the name or of a mark. -/
theorem not_mem_escape {x : Char} (hmark : x ∉ ['_', 'r', '#']) {name : String}
    (h : x ∉ name.toList) :
  x ∉ (escape name).toList
  := by
  obtain ⟨hunderscore, hr, hhash⟩ : x ≠ '_' ∧ x ≠ 'r' ∧ x ≠ '#' := by simpa using hmark
  unfold escape
  split
  case isTrue => simp [h, hunderscore]
  case isFalse =>
    split
    case isTrue => simp [h, hr, hhash]
    case isFalse =>
      split
      case isTrue => simp [h, hunderscore]
      case isFalse => exact h

/-- The identifier of a type that is named by words. -/
theorem isName_escape_pascal {words : Words} (h : words.Sound) (hne : words.isEmpty = false) :
  IsName (escape words.pascalCase)
  := by
  have hword := h.isWord_pascal hne
  apply isName_escape _ hword.no_colon
  intro hempty
  apply hword.ne_nil
  rw [hempty, String.toList_empty]

theorem isName_typeName {name : String} (h : (Words.parse name).isEmpty = false) :
  IsName (typeName name) :=
  isName_escape_pascal (Words.sound_parse name) h

/-- The identifier of a module. -/
theorem isName_valueName {name : String} (h : valueName name ≠ "") : IsName (valueName name) := by
  apply isName_escape _ (Words.sound_parse name).no_colon_snake
  intro hempty
  apply h
  rw [valueName, ServiceBindings.snakeCase, hempty]
  decide

theorem not_mem_valueName {x : Char} (hx : Words.IsForeign x) (hmark : x ∉ ['_', 'r', '#'])
    (name : String) :
  x ∉ (valueName name).toList
  := by
  apply not_mem_escape hmark
  apply hx.not_mem_snake
  rintro rfl
  apply hmark List.mem_cons_self

theorem isToken_escape {name : String} (h : Text.IsToken name) : Text.IsToken (escape name) where
  blank := not_mem_escape (by decide) h.blank
  feed := not_mem_escape (by decide) h.feed
  dot := not_mem_escape (by decide) h.dot

theorem isToken_valueName (name : String) : Text.IsToken (valueName name) where
  blank := not_mem_valueName Words.isForeign_blank (by decide) name
  feed := not_mem_valueName Words.isForeign_feed (by decide) name
  dot := not_mem_valueName Words.isForeign_dot (by decide) name

theorem isToken_dropRaw {name : String} (h : Text.IsToken name) : Text.IsToken (dropRaw name) := by
  have hmem {x : Char} (hx : x ∈ dropRawChars name.toList) : x ∈ name.toList :=
    (dropRawChars_suffix name.toList).mem hx
  constructor <;> rw [dropRaw, String.toList_ofList]
  · apply fun hx => h.blank (hmem hx)
  · apply fun hx => h.feed (hmem hx)
  · apply fun hx => h.dot (hmem hx)

end Identifier

namespace NameScope

/-- The accepted candidate is one of the candidates. -/
theorem exists_firstFree {α : Type} (isTaken : α → Bool) (candidate : Nat → α) (tries n : Nat) :
  ∃ i, firstFree isTaken candidate tries n = candidate i
  := by
  induction tries generalizing n with
  | zero => exact ⟨n, rfl⟩
  | succ tries ih =>
      rw [firstFree]
      split
      case isTrue => apply ih
      case isFalse => exact ⟨n, rfl⟩

/-- A number at the end of a name leaves it a name. -/
theorem isName_append_number {base : String} (h : IsName base) (n : Nat) :
  IsName (base ++ toString n)
  := by
  have hdigits : ∀ c ∈ (toString n).toList, c.isDigit = true := by
    intro c hc
    apply @Nat.isDigit_of_mem_toDigits 10 n c (by decide) (by decide)
    rw [← Nat.toList_repr]
    apply hc
  have hne : (toString n).toList ≠ [] := by
    intro hnil
    apply @Nat.toDigits_ne_nil n 10
    rw [← Nat.toList_repr]
    apply hnil
  constructor
  · simp [h.ne_empty]
  · intro hsuper
    -- The last character is a digit.
    have hlast : (toString n).toList.getLast hne = 'r' := by
      have heq := congrArg (fun text => text.toList.getLast?) hsuper
      rw [String.toList_append, List.getLast?_append, List.getLast?_eq_some_getLast hne,
        Option.some_or] at heq
      apply Option.some.inj heq
    have hdigit := hdigits _ (List.getLast_mem hne)
    rw [hlast] at hdigit
    cases hdigit
  · rw [String.toList_append, List.mem_append, not_or]
    use h.no_colon
    intro hcolon
    cases hdigits ':' hcolon

/-- The name that is given away for a name is one too. -/
theorem isName_nameFor {base : String} (h : IsName base) (scope : NameScope) :
  IsName (scope.nameFor base)
  := by
  unfold nameFor
  split
  case isTrue =>
    obtain ⟨n, hn⟩ := exists_firstFree (· ∈ scope.taken) (fun n => base ++ toString n)
      scope.taken.length 2
    rw [hn]
    apply isName_append_number h
  case isFalse => apply h

end NameScope

end ServiceBindings
