import Mathlib.Tactic.Use
import ServiceBindings.Naming.Identifier

/-!
# Identifiers without marks

A keyword becomes an identifier by the mark of raw identifiers.  Dropping the mark again makes no
two identifiers the same, unless a name has a mark of its own.  Names that neither start nor end
with an underscore become the same identifier only if one of them is a keyword and the other one
has the mark that the keyword gets.
-/

namespace ServiceBindings.Identifier

/-- Whether a text starts with the mark of raw identifiers. -/
def IsRaw (name : String) : Prop :=
  ['r', '#'] <+: name.toList

theorem dropRawChars_suffix (cs : List Char) : dropRawChars cs <:+ cs := by
  fun_induction dropRawChars cs with
  | case1 rest ih => apply ih.trans (List.suffix_append ['r', '#'] rest)
  | case2 => apply List.suffix_refl

theorem dropRaw_of_not_isRaw {name : String} (h : ¬IsRaw name) :
  dropRaw name = name
  := by
  have hchars : ∀ cs : List Char, ¬['r', '#'] <+: cs → dropRawChars cs = cs := by
    intro cs hcs
    fun_cases dropRawChars cs with
    | case1 rest => simp at hcs
    | case2 => rfl
  rw [dropRaw, hchars _ h, String.ofList_toList]

theorem not_isRaw_of_mem_keywords {name : String} (h : name ∈ keywords) :
  ¬IsRaw name
  := by
  have hall : ∀ word ∈ keywords, ¬['r', '#'] <+: word.toList := by decide
  apply hall name h

/-- No name is escaped to a keyword. -/
theorem escape_not_mem_keywords (name : String) :
  escape name ∉ keywords
  := by
  have hlast : ∀ word ∈ keywords, word.toList.getLast? ≠ some '_' := by decide
  have hfirst : ∀ word ∈ keywords, word.toList.head? ≠ some '_' := by decide
  intro h
  unfold escape at h
  split at h
  case isTrue =>
    apply hlast _ h
    simp
  case isFalse =>
    split at h
    case isTrue =>
      apply not_isRaw_of_mem_keywords h
      simp [IsRaw]
    case isFalse hname =>
      split at h
      case isTrue =>
        apply hfirst _ h
        simp
      case isFalse => apply hname h

/-- Only keywords are escaped by a mark. -/
theorem dropRaw_escape {name : String} (h : ¬IsRaw name) :
  dropRaw (escape name) = escape name
    ∨ name ∈ keywords ∧ escape name = "r#" ++ name ∧ dropRaw (escape name) = name
  := by
  unfold escape
  split
  case isTrue hname =>
    left
    have hall : ∀ word ∈ pathKeywords, dropRaw (word ++ "_") = word ++ "_" := by decide
    apply hall name hname
  case isFalse =>
    split
    case isTrue hname =>
      right
      use hname, rfl
      have hdrop : dropRaw ("r#" ++ name) = dropRaw name := by
        simp [dropRaw, dropRawChars]
      rw [hdrop, dropRaw_of_not_isRaw h]
    case isFalse =>
      left
      split
      case isTrue =>
        apply dropRaw_of_not_isRaw
        simp [IsRaw]
      case isFalse => apply dropRaw_of_not_isRaw h

/-- Names without a mark of their own have the same identifier if their identifiers differ at most
in the mark. -/
theorem escape_eq_of_dropRaw {first second : String} (hfirst : ¬IsRaw first)
    (hsecond : ¬IsRaw second) (h : dropRaw (escape first) = dropRaw (escape second)) :
  escape first = escape second
  := by
  obtain hkept | ⟨hkeyword, -, hdrop⟩ := dropRaw_escape hfirst
  · obtain hkept' | ⟨hkeyword', -, hdrop'⟩ := dropRaw_escape hsecond
    · rw [← hkept, ← hkept', h]
    · apply absurd hkeyword'
      rw [← hdrop', ← h, hkept]
      apply escape_not_mem_keywords
  · obtain hkept' | ⟨hkeyword', -, hdrop'⟩ := dropRaw_escape hsecond
    · apply absurd hkeyword
      rw [← hdrop, h, hkept']
      apply escape_not_mem_keywords
    · rw [← hdrop, ← hdrop', h]

/-! ### Names with the same identifier -/

/-- Whether a text neither starts nor ends with an underscore. -/
structure IsTrimmed (name : String) : Prop where
  head : name.toList.head? ≠ some '_'
  last : name.toList.getLast? ≠ some '_'

/-- A name, with the mark of raw identifiers if it is a keyword. -/
def marked (name : String) : String :=
  if name ∈ keywords then "r#" ++ name else name

/-- The characters of an identifier without an underscore at either end. -/
def stripped (name : String) : List Char :=
  let cs := if name.toList.head? = some '_' then name.toList.tail else name.toList
  if cs.getLast? = some '_' then cs.dropLast else cs

/-- Without the underscores at its ends, an identifier is the name with its mark. -/
theorem stripped_escape {name : String} (h : IsTrimmed name) :
  stripped (escape name) = (marked name).toList
  := by
  unfold escape
  split
  case isTrue hname =>
    have hall : ∀ word ∈ pathKeywords, stripped (word ++ "_") = (marked word).toList := by decide
    apply hall name hname
  case isFalse =>
    split
    case isTrue hname =>
      have hall : ∀ word ∈ keywords, stripped ("r#" ++ word) = (marked word).toList := by
        decide +kernel
      apply hall name hname
    case isFalse hname =>
      rw [marked, if_neg hname]
      split
      case isTrue => simp [stripped, h.last]
      case isFalse => simp [stripped, h.head, h.last]

/-- Whether a name is a keyword and another one is the identifier that it becomes. -/
def IsMarked (first second : String) : Prop :=
  first ∈ keywords ∧ second = "r#" ++ first

instance (first second : String) : Decidable (IsMarked first second) :=
  inferInstanceAs (Decidable (_ ∧ _))

theorem IsMarked.escape_eq {first second : String} (h : IsMarked first second) :
  escape first = escape second
  := by
  obtain ⟨hkeyword, rfl⟩ := h
  have hall : ∀ word ∈ keywords, escape word = escape ("r#" ++ word) := by decide +kernel
  apply hall first hkeyword

/-- Names become the same identifier only if they are the same, or one of them is a keyword and the
other one the identifier that it becomes. -/
theorem escape_eq_iff {first second : String} (hfirst : IsTrimmed first)
    (hsecond : IsTrimmed second) :
  escape first = escape second
    ↔ first = second ∨ IsMarked first second ∨ IsMarked second first
  := by
  constructor
  · intro h
    have hmarked : marked first = marked second := by
      rw [← String.toList_inj, ← stripped_escape hfirst, ← stripped_escape hsecond, h]
    unfold marked at hmarked
    split at hmarked
    case isTrue hkeyword =>
      split at hmarked
      case isTrue => exact .inl ((String.append_right_inj _).mp hmarked)
      case isFalse => exact .inr (.inl ⟨hkeyword, hmarked.symm⟩)
    case isFalse =>
      split at hmarked
      case isTrue hkeyword => exact .inr (.inr ⟨hkeyword, hmarked⟩)
      case isFalse => exact .inl hmarked
  · rintro (rfl | h | h)
    · rfl
    · apply h.escape_eq
    · apply h.escape_eq.symm

end ServiceBindings.Identifier
