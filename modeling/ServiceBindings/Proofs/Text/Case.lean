import ServiceBindings.Text.Lowercase
import ServiceBindings.Text.Uppercase

/-!
# Case and ASCII

Characters from all over become others when their case changes, but no ASCII character comes out
of that except letters of the case asked for, and characters that stay what they are.
-/

namespace ServiceBindings.Text

/-- What holds of the first code points holds of the characters of ASCII. -/
theorem forall_ascii {property : Char → Prop} (h : ∀ n < 128, property (Char.ofNat n)) {c : Char}
    (hascii : c.toNat < 128) :
  property c
  := by
  rw [← Char.ofNat_toNat c]
  apply h _ hascii

/-- The capitals of ASCII stand next to each other. -/
theorem toNat_of_isUpper {c : Char} (h : c.isUpper = true) : 65 ≤ c.toNat ∧ c.toNat ≤ 90 :=
  of_decide_eq_true h

/-- The small letters of ASCII stand next to each other. -/
theorem toNat_of_isLower {c : Char} (h : c.isLower = true) : 97 ≤ c.toNat ∧ c.toNat ≤ 122 := by
  obtain ⟨hfirst, hlast⟩ := (Bool.and_eq_true _ _).mp h
  exact ⟨of_decide_eq_true hfirst, of_decide_eq_true hlast⟩

/-- A code point stands for no other character than its own, or for the first one of all. -/
theorem toNat_of_ofNat_eq {n : Nat} {x : Char} (h : Char.ofNat n = x) (hpos : 0 < x.toNat) :
  n = x.toNat
  := by
  by_cases hvalid : n.isValidChar
  · rw [Char.ofNat, dif_pos hvalid] at h
    apply congrArg Char.toNat h
  · rw [Char.ofNat, dif_neg hvalid] at h
    rw [← h] at hpos
    apply absurd hpos
    decide

/-- What runs move to ASCII has a property, if they move nothing there but single characters and
each of these becomes one with the property. -/
theorem moveBy_ascii {runs : List ShiftedRun} {property : Nat → Prop} {n m : Nat}
    (hruns : ∀ run ∈ runs, (128 : Int) ≤ run.1 + run.2.2.2
      ∨ run.2.1 = run.1 ∧ property (run.1 + run.2.2.2).toNat)
    (h : moveBy runs n = some m) (hm : m < 128) :
  property m
  := by
  obtain ⟨run, hrun, hmove⟩ := List.exists_of_findSome?_eq_some h
  unfold ShiftedRun.move CharacterRun.holds at hmove
  split at hmove
  case isTrue hholds =>
    simp only [Bool.and_eq_true, decide_eq_true_eq] at hholds
    obtain ⟨⟨hfirst, hlast⟩, -⟩ := hholds
    obtain rfl := Option.some.inj hmove
    simp only [Int.ofNat_eq_natCast] at hm ⊢
    rcases hruns run hrun with hfar | ⟨hsingle, hproperty⟩
    · omega
    · obtain rfl : n = run.1 := by omega
      apply hproperty
  case isFalse => cases hmove

/-- An ASCII character in the lower case of another one is that one, or a small letter. -/
theorem mem_lower {c x : Char} (h : x ∈ lower c) (hpos : 0 < x.toNat) (hascii : x.toNat < 128) :
  x = c ∧ c.isUpper = false ∨ x.isLower = true
  := by
  unfold lower at h
  split at h
  case isTrue hc =>
    rw [List.mem_singleton.mp h]
    apply forall_ascii _ hc
    decide
  case isFalse hc =>
    split at h
    case isTrue =>
      right
      rcases List.mem_cons.mp h with rfl | h
      · rfl
      · rw [List.mem_singleton.mp h] at hascii
        apply absurd hascii
        decide
    case isFalse =>
      split at h
      case h_1 n hmove =>
        right
        have hx := List.mem_singleton.mp h
        have hn := toNat_of_ofNat_eq hx.symm hpos
        have hruns : ∀ run ∈ lowerShifts, (128 : Int) ≤ run.1 + run.2.2.2
            ∨ run.2.1 = run.1 ∧ (Char.ofNat (run.1 + run.2.2.2).toNat).isLower = true := by
          decide +kernel
        rw [hx]
        apply moveBy_ascii hruns hmove (by omega)
      case h_2 =>
        rw [List.mem_singleton.mp h] at hascii
        apply absurd hascii hc

/-- An ASCII character in the upper case of another one is that one, or a capital. -/
theorem mem_upper {c x : Char} (h : x ∈ upper c) (hpos : 0 < x.toNat) (hascii : x.toNat < 128) :
  x = c ∧ c.isLower = false ∨ x.isUpper = true
  := by
  unfold upper at h
  split at h
  case isTrue hc =>
    rw [List.mem_singleton.mp h]
    apply forall_ascii _ hc
    decide
  case isFalse hc =>
    split at h
    case h_1 ns hexpansion =>
      right
      have hall : ∀ entry ∈ upperExpansions, ∀ n ∈ entry.2, n < 128 →
          (Char.ofNat n).isUpper = true := by
        decide +kernel
      obtain ⟨before, after, heq, -⟩ := List.lookup_eq_some_iff.mp hexpansion
      obtain ⟨n, hn, hx⟩ := List.mem_map.mp h
      have hx' := toNat_of_ofNat_eq hx hpos
      rw [← hx]
      apply hall (c.toNat, ns) (by simp [heq]) n hn
      omega
    case h_2 =>
      split at h
      case h_1 n hmove =>
        right
        have hx := List.mem_singleton.mp h
        have hn := toNat_of_ofNat_eq hx.symm hpos
        have hruns : ∀ run ∈ upperShifts, (128 : Int) ≤ run.1 + run.2.2.2
            ∨ run.2.1 = run.1 ∧ (Char.ofNat (run.1 + run.2.2.2).toNat).isUpper = true := by
          decide +kernel
        rw [hx]
        apply moveBy_ascii hruns hmove (by omega)
      case h_2 =>
        rw [List.mem_singleton.mp h] at hascii
        apply absurd hascii hc

theorem upper_ne_nil (c : Char) : upper c ≠ [] := by
  unfold upper
  split
  case isTrue => simp
  case isFalse =>
    split
    case h_1 ns hexpansion =>
      have hall : ∀ entry ∈ upperExpansions, entry.2 ≠ [] := by decide +kernel
      obtain ⟨before, after, heq, -⟩ := List.lookup_eq_some_iff.mp hexpansion
      simpa using hall (c.toNat, ns) (by simp [heq])
    case h_2 => split <;> simp

theorem lower_ne_nil (c : Char) : lower c ≠ [] := by
  unfold lower
  split
  case isTrue => simp
  case isFalse =>
    split
    case isTrue => simp
    case isFalse => split <;> simp

end ServiceBindings.Text
