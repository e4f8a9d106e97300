import Mathlib.Data.List.TakeWhile
import Mathlib.Tactic.Use
import ServiceBindings.Json.Number
import ServiceBindings.Json.Writer

/-!
# Numbers that read back

A number is read the same on its own and in front of a text that it cannot go on with.  A whole
number of at most 64 bits is read back from its digits.
-/

namespace ServiceBindings.JsonNumber

/-- Whether a number is read back from its text. -/
def ReadsBack (value : JsonNumber) : Prop :=
  read (Json.writeNumber value) = some (value, [])

/-- Whether a number cannot go on with a text. -/
def EndsBefore (rest : List Char) : Prop :=
  ∀ c ∈ rest.head?, c.isDigit = false ∧ c ≠ '.' ∧ c ≠ 'e' ∧ c ≠ 'E'

variable {cs rest : List Char}

/-! ### Numbers within a text -/

theorem takeWhile_append_endsBefore (cs : List Char) (hrest : EndsBefore rest) :
  (cs ++ rest).takeWhile Char.isDigit = cs.takeWhile Char.isDigit
  := by
  induction cs with
  | nil =>
      cases rest with
      | nil => rfl
      | cons c rest => simp [hrest c rfl]
  | cons c cs ih => simp [List.takeWhile_cons, ih]

theorem dropWhile_append_endsBefore (cs : List Char) (hrest : EndsBefore rest) :
  (cs ++ rest).dropWhile Char.isDigit = cs.dropWhile Char.isDigit ++ rest
  := by
  induction cs with
  | nil =>
      cases rest with
      | nil => rfl
      | cons c rest => simp [hrest c rfl]
  | cons c cs ih =>
      rw [List.cons_append, List.dropWhile_cons, List.dropWhile_cons, ih]
      split
      · rfl
      · rfl

theorem readExponent_append {down : Bool} {digits : List Char} (hrest : EndsBefore rest)
    (h : readExponent cs = some (down, digits, [])) :
  readExponent (cs ++ rest) = some (down, digits, rest)
  := by
  -- behind a sign, or without one, the digits are the same
  have hsigned : ∀ sign (cs : List Char),
      (if (cs.takeWhile Char.isDigit).isEmpty then none
        else some (sign, cs.takeWhile Char.isDigit, cs.dropWhile Char.isDigit))
        = some (down, digits, []) →
      (if ((cs ++ rest).takeWhile Char.isDigit).isEmpty then none
        else some (sign, (cs ++ rest).takeWhile Char.isDigit, (cs ++ rest).dropWhile Char.isDigit))
        = some (down, digits, rest) := by
    intro sign cs h
    rw [takeWhile_append_endsBefore cs hrest, dropWhile_append_endsBefore cs hrest]
    split at h
    case isTrue => cases h
    case isFalse hsome =>
      injection h with h
      injection h with hsign h
      injection h with hdigits h
      rw [if_neg hsome, hsign, hdigits, h, List.nil_append]
  cases cs with
  | nil => cases h
  | cons c cs =>
      rw [List.cons_append]
      unfold readExponent at h ⊢
      by_cases hplus : c = '+'
      · subst hplus
        apply hsigned false cs h
      by_cases hminus : c = '-'
      · subst hminus
        apply hsigned true cs h
      · simp only [List.cons.injEq, hplus, hminus, false_and, imp_self, implies_true] at h ⊢
        apply hsigned false (c :: cs) h

theorem finish_append {negative : Bool} {significand : Nat} {exponent : Int} {value : JsonNumber}
    (hrest : EndsBefore rest) (h : finish negative significand exponent cs = some (value, [])) :
  finish negative significand exponent (cs ++ rest) = some (value, rest)
  := by
  cases cs with
  | nil =>
      cases h
      cases rest with
      | nil => rfl
      | cons c rest => simp [finish, hrest c rfl]
  | cons c cs =>
      rw [List.cons_append]
      unfold finish at h ⊢
      dsimp only at h ⊢
      split at h
      case isTrue hmark =>
        rw [if_pos hmark]
        split at h
        case h_1 => cases h
        case h_2 down digits rest' hexponent =>
          have hrest' : rest' = [] := by
            split at h
            case h_1 => cases h; rfl
            case h_2 =>
              split at h
              · cases h; rfl
              · cases h; rfl
          rw [hrest'] at hexponent h
          rw [readExponent_append hrest hexponent]
          dsimp only
          split at h
          case h_1 => cases h; rfl
          case h_2 =>
            split at h
            case isTrue hgreat =>
              cases h
              rw [if_pos hgreat]
            case isFalse hgreat =>
              cases h
              rw [if_neg hgreat]
      case isFalse => cases h

theorem readUnsigned_append {negative : Bool} {value : JsonNumber} (hrest : EndsBefore rest)
    (h : readUnsigned negative cs = some (value, [])) :
  readUnsigned negative (cs ++ rest) = some (value, rest)
  := by
  unfold readUnsigned at h ⊢
  rw [takeWhile_append_endsBefore cs hrest, dropWhile_append_endsBefore cs hrest]
  generalize cs.takeWhile Char.isDigit = digits at h ⊢
  generalize cs.dropWhile Char.isDigit = others at h ⊢
  dsimp only at h ⊢
  split at h
  case isTrue => cases h
  case isFalse hdigits =>
    rw [if_neg hdigits]
    rcases others with _ | ⟨c, others⟩
    · cases rest with
      | nil => apply h
      | cons c rest =>
          obtain ⟨-, hpoint, hmark, hmark'⟩ := hrest c rfl
          simp only [List.nil_append, hmark, hmark', decide_false, Bool.or_self,
            Bool.false_eq_true, if_false] at h ⊢
          split at h
          case isTrue hleft =>
            cases h
            rw [if_pos hleft]
          case isFalse hleft =>
            cases h
            rw [if_neg hleft]
    · by_cases hpoint : c = '.'
      · subst hpoint
        have htake := takeWhile_append_endsBefore others hrest
        have hdrop := dropWhile_append_endsBefore others hrest
        simp only [List.cons_append, htake, hdrop] at h ⊢
        split at h
        case isTrue => cases h
        case isFalse hplaces =>
          rw [if_neg hplaces]
          apply finish_append hrest h
      · simp only [List.cons_append] at h ⊢
        split at h
        case isTrue hmark =>
          rw [if_pos hmark]
          apply finish_append hrest h
        case isFalse =>
          split at h
          · cases h
          · cases h

/-- What is read of a number alone is read of it in front of a text that it cannot go on with. -/
theorem read_append {value : JsonNumber} (hrest : EndsBefore rest)
    (h : read cs = some (value, [])) :
  read (cs ++ rest) = some (value, rest)
  := by
  cases cs with
  | nil => cases h
  | cons c cs =>
      by_cases hminus : c = '-'
      · subst hminus
        apply readUnsigned_append hrest h
      · simp only [read, List.cons_append, List.cons.injEq, hminus, false_and, imp_self,
          implies_true] at h ⊢
        apply readUnsigned_append hrest h

/-- A number starts with a digit or a sign. -/
theorem head_of_read {c : Char} {result : JsonNumber × List Char}
    (h : read (c :: cs) = some result) :
  c = '-' ∨ c.isDigit = true
  := by
  by_contra hc
  obtain ⟨hminus, hdigit⟩ := not_or.mp hc
  simp [read, readUnsigned, hminus, hdigit] at h

/-! ### Whole numbers -/

theorem le_ofDigitChars (n : Nat) (digits : List Char) : n ≤ Nat.ofDigitChars 10 digits n := by
  rw [Nat.ofDigitChars_eq_ofDigitChars_zero]
  apply Nat.le_add_right_of_le
  apply Nat.le_mul_of_pos_left
  apply Nat.pow_pos
  decide

/-- Digits that keep to 64 bits are all joined. -/
theorem absorb_eq {n : Nat} {digits : List Char}
    (h : Nat.ofDigitChars 10 digits n ≤ maxNatural) :
  absorb n digits = (Nat.ofDigitChars 10 digits n, digits.length)
  := by
  induction digits generalizing n with
  | nil => rfl
  | cons c digits ih =>
      have hnext : 10 * n + (c.toNat - '0'.toNat) = n * 10 + digitValue c := by
        rw [Nat.mul_comm]
        rfl
      rw [Nat.ofDigitChars_cons, hnext] at h ⊢
      have hle : n * 10 + digitValue c ≤ maxNatural := Nat.le_trans (le_ofDigitChars _ digits) h
      rw [absorb, if_neg (Nat.not_lt.mpr hle), ih h]
      rfl

/-- Only zero starts with a zero. -/
theorem head?_toDigits {n : Nat} (h : 0 < n) : (Nat.toDigits 10 n).head? ≠ some '0' := by
  induction n using Nat.strongRecOn with
  | ind n ih =>
      rw [Nat.toDigits_eq_if (by decide)]
      split
      case isTrue =>
        simpa [Nat.digitChar_eq_zero] using Nat.pos_iff_ne_zero.mp h
      case isFalse hlarge =>
        have hne : Nat.toDigits 10 (n / 10) ≠ [] := Nat.toDigits_ne_nil
        rw [List.head?_append, List.head?_eq_some_head hne, Option.some_or,
          ← List.head?_eq_some_head hne]
        apply ih
        · omega
        · omega

/-- A whole number of at most 64 bits reads back. -/
theorem readsBack_natural {n : Nat} (h : n ≤ maxNatural) : (natural n).ReadsBack := by
  have hdigits : ∀ c ∈ Nat.toDigits 10 n, c.isDigit = true := by
    intro c hc
    apply Nat.isDigit_of_mem_toDigits _ _ hc <;> decide
  have htake := List.takeWhile_eq_self_iff.mpr hdigits
  have hdrop := List.dropWhile_eq_nil_iff.mpr hdigits
  have habsorb : absorb 0 (Nat.toDigits 10 n) = (n, (Nat.toDigits 10 n).length) := by
    have hvalue : Nat.ofDigitChars 10 (Nat.toDigits 10 n) 0 = n := Nat.ofDigitChars_ten_toDigits
    rw [absorb_eq, hvalue]
    rwa [hvalue]
  have hhead : ¬((Nat.toDigits 10 n).isEmpty
      || ((Nat.toDigits 10 n).head? = some '0' && 1 < (Nat.toDigits 10 n).length)) = true := by
    rcases Nat.eq_zero_or_pos n with rfl | hpos
    · decide
    · simp [head?_toDigits hpos, Nat.toDigits_ne_nil]
  rw [ReadsBack, Json.writeNumber, Decimal.digitsOf, read]
  · rw [readUnsigned, htake, hdrop, habsorb]
    dsimp only
    rw [if_neg hhead, if_pos (Nat.sub_self _)]
    rfl
  · intro rest hsign
    rw [hsign] at hdigits
    cases hdigits '-' List.mem_cons_self

end ServiceBindings.JsonNumber
