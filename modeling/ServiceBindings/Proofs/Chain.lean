import Mathlib.Data.List.Nodup
import Mathlib.Data.Nat.Find

/-!
# Chains

From a place, a partial function leads to the next one, and so on.  The chain may end, and it may
come back to a place where it was before.  The first place on it that has a property is reached
without passing a place twice, so in no more steps than there are places to pass.
-/

namespace ServiceBindings

namespace Chain

variable {α : Type} {next : α → Option α} {P : α → Prop} {start target : α} {steps : Nat}

/-- The place that a number of steps leads to. -/
def follow (next : α → Option α) (start : α) : Nat → Option α
  | 0 => some start
  | steps + 1 => (follow next start steps).bind next

/-- Steps can be taken in two parts. -/
theorem follow_add (next : α → Option α) (start : α) (first second : Nat) :
  follow next start (first + second)
    = (follow next start first).bind fun middle => follow next middle second
  := by
  induction second with
  | zero => simp [follow]
  | succ second ih =>
      rw [← Nat.add_assoc, follow, ih, Option.bind_assoc]
      rfl

/-- The first step comes before the others. -/
theorem follow_succ (next : α → Option α) (start : α) (steps : Nat) :
  follow next start (steps + 1) = (next start).bind fun second => follow next second steps
  := by
  rw [Nat.add_comm, follow_add]
  rfl

/-- Whether a number of steps leads to the first place on a chain that has a property. -/
structure First (next : α → Option α) (P : α → Prop) (start : α) (steps : Nat) (target : α) :
    Prop where
  reached : follow next start steps = some target
  holds : P target
  earlier : ∀ fewer < steps, ∀ passed, follow next start fewer = some passed → ¬P passed

/-- If a place with a property is reached, there is a first one. -/
theorem exists_first (h : follow next start steps = some target) (htarget : P target) :
  ∃ fewest found, First next P start fewest found
  := by
  classical
  have hexists : ∃ fewest found, follow next start fewest = some found ∧ P found :=
    ⟨steps, target, h, htarget⟩
  obtain ⟨found, hfound, hholds⟩ := Nat.find_spec hexists
  refine ⟨Nat.find hexists, found, hfound, hholds, ?_⟩
  intro fewer hfewer passed hpassed hP
  apply Nat.find_min hexists hfewer ⟨passed, hpassed, hP⟩

theorem first_zero : First next P start 0 target ↔ start = target ∧ P start := by
  constructor
  · rintro ⟨⟨⟩, hholds, -⟩
    exact ⟨rfl, hholds⟩
  · rintro ⟨rfl, hholds⟩
    exact ⟨rfl, hholds, fun _ h => nomatch h⟩

/-- A chain whose beginning lacks the property has its first place with it behind the beginning. -/
theorem first_succ :
  First next P start (steps + 1) target
    ↔ ¬P start ∧ ∃ second, next start = some second ∧ First next P second steps target
  := by
  constructor
  · rintro ⟨hreached, hholds, hearlier⟩
    rw [follow_succ] at hreached
    obtain ⟨second, hsecond, hreached⟩ := Option.bind_eq_some_iff.mp hreached
    refine ⟨hearlier 0 (Nat.zero_lt_succ _) start rfl, second, hsecond, hreached, hholds, ?_⟩
    intro fewer hfewer passed hpassed
    apply hearlier (fewer + 1) (Nat.succ_lt_succ hfewer)
    rw [follow_succ, hsecond, Option.bind_some, hpassed]
  · rintro ⟨hstart, second, hsecond, hreached, hholds, hearlier⟩
    refine ⟨by rw [follow_succ, hsecond, Option.bind_some, hreached], hholds, ?_⟩
    intro fewer hfewer passed hpassed
    cases fewer with
    | zero =>
        cases hpassed
        apply hstart
    | succ fewer =>
        rw [follow_succ, hsecond, Option.bind_some] at hpassed
        apply hearlier fewer (Nat.lt_of_succ_lt_succ hfewer) passed hpassed

namespace First

variable (h : First next P start steps target)

include h

/-- Before the first place, the chain goes on. -/
theorem exists_passed {i : Nat} (hi : i < steps) :
  ∃ passed second, follow next start i = some passed ∧ next passed = some second
  := by
  have hreached := h.reached
  rw [← Nat.add_sub_cancel' hi, follow_add] at hreached
  obtain ⟨second, hsecond, -⟩ := Option.bind_eq_some_iff.mp hreached
  obtain ⟨passed, hpassed, hsecond⟩ := Option.bind_eq_some_iff.mp hsecond
  exact ⟨passed, second, hpassed, hsecond⟩

/-- The way to the first place passes different places. -/
theorem follow_ne {i j : Nat} (hij : i < j) (hj : j < steps) :
  follow next start i ≠ follow next start j
  := by
  -- Else the steps between the two could be left out.
  intro heq
  have hshort : follow next start (i + (steps - j)) = some target := by
    rw [follow_add, heq, ← follow_add, Nat.add_sub_cancel' (Nat.le_of_lt hj), h.reached]
  apply h.earlier (i + (steps - j)) (by omega) target hshort h.holds

/-- The first place is reached in no more steps than there are places to pass. -/
theorem steps_le {places : List α}
    (hplaces : ∀ passed second, ¬P passed → next passed = some second → passed ∈ places) :
  steps ≤ places.length
  := by
  have hnodup : ((List.range steps).map (follow next start)).Nodup := by
    apply List.Nodup.map_on _ List.nodup_range
    intro i hi j hj heq
    rcases Nat.lt_trichotomy i j with hlt | heq' | hlt
    · apply absurd heq (h.follow_ne hlt (List.mem_range.mp hj))
    · apply heq'
    · apply absurd heq.symm (h.follow_ne hlt (List.mem_range.mp hi))
  have hsubset : (List.range steps).map (follow next start) ⊆ places.map some := by
    intro found hfound
    obtain ⟨i, hi, rfl⟩ := List.mem_map.mp hfound
    obtain ⟨passed, second, hpassed, hsecond⟩ := h.exists_passed (List.mem_range.mp hi)
    rw [hpassed]
    apply List.mem_map_of_mem
    apply hplaces passed second _ hsecond
    apply h.earlier i (List.mem_range.mp hi) passed hpassed
  simpa using hnodup.length_le_of_subset hsubset

end First

end Chain

end ServiceBindings
