import Mathlib.Data.List.Nodup
import Mathlib.Data.List.Perm.Subperm
import Mathlib.Order.Bounds.Defs
import ServiceBindings.Naming.Scope

/-!
# Names of a scope are new

A scope looks at one candidate more than it has names, and the candidates are all different, so the
name that it gives away was not taken before.  The bound on what it looks at changes nothing: a
search without one ends at the same name, whose number is the smallest that is free.  Over a run of
requests the names that are taken are those given away before, so each of them depends on these and
on what is asked for only.
-/

namespace ServiceBindings

namespace NameScope

/-! ### The bounded search -/

/-- If the accepted candidate is taken, then so are all candidates before it. -/
theorem isTaken_of_firstFree {α : Type} (isTaken : α → Bool) (candidate : Nat → α)
    {tries n : Nat} (h : isTaken (firstFree isTaken candidate tries n) = true) :
  ∀ i ≤ tries, isTaken (candidate (n + i)) = true
  := by
  induction tries generalizing n with
  | zero =>
      intro i hi
      obtain rfl := Nat.le_zero.mp hi
      apply h
  | succ tries ih =>
      rw [firstFree] at h
      split at h
      case isTrue hn =>
        intro i hi
        cases i with
        | zero => apply hn
        | succ i =>
            rw [Nat.add_comm i, ← Nat.add_assoc]
            apply ih h i (Nat.le_of_succ_le_succ hi)
      case isFalse hn => apply absurd h hn

/-- What is computed from the accepted candidate is accepted among what is computed from each. -/
theorem map_firstFree {α β : Type} (f : α → β) (isTaken : β → Bool) (candidate : Nat → α)
    (tries n : Nat) :
  f (firstFree (fun a => isTaken (f a)) candidate tries n)
    = firstFree isTaken (fun i => f (candidate i)) tries n
  := by
  induction tries generalizing n with
  | zero => rfl
  | succ tries ih =>
      rw [firstFree, firstFree]
      split
      case isTrue => apply ih
      case isFalse => rfl

/-- Different candidates that are taken are not more than the names that are. -/
theorem le_length_of_taken {taken : List String} {candidate : Nat → String}
    (hcandidate : ∀ i j, candidate i = candidate j → i = j) {n count : Nat}
    (h : ∀ i < count, candidate (n + i) ∈ taken) :
  count ≤ taken.length
  := by
  have hnodup : ((List.range count).map fun i => candidate (n + i)).Nodup := by
    apply List.Nodup.map _ List.nodup_range
    intro i j hij
    apply Nat.add_left_cancel (hcandidate _ _ hij)
  have hsubset : ((List.range count).map fun i => candidate (n + i)) ⊆ taken := by
    intro name hname
    obtain ⟨i, hi, rfl⟩ := List.mem_map.mp hname
    apply h i (List.mem_range.mp hi)
  have hlength := (hnodup.subperm hsubset).length_le
  rwa [List.length_map, List.length_range] at hlength

/-- Among different candidates, one that is not taken is accepted. -/
theorem firstFree_not_mem {taken : List String} {candidate : Nat → String}
    (hcandidate : ∀ i j, candidate i = candidate j → i = j) (n : Nat) :
  firstFree (· ∈ taken) candidate taken.length n ∉ taken
  := by
  intro h
  -- Otherwise more different names are taken than there are.
  have htaken : ∀ i ≤ taken.length, decide (candidate (n + i) ∈ taken) = true := by
    apply isTaken_of_firstFree (· ∈ taken) candidate
    apply decide_eq_true h
  have hlength : taken.length + 1 ≤ taken.length := by
    apply le_length_of_taken hcandidate
    intro i hi
    apply of_decide_eq_true (htaken i (Nat.le_of_lt_succ hi))
  apply Nat.not_succ_le_self _ hlength

/-- Numbers at the end of a name tell names apart. -/
theorem append_number_inj (base : String) (i j : Nat)
    (h : base ++ toString i = base ++ toString j) :
  i = j
  := by
  have hrepr : i.repr = j.repr := (String.append_right_inj base).mp h
  rw [← String.toList_inj, Nat.toList_repr, Nat.toList_repr] at hrepr
  calc
    i = Nat.ofDigitChars 10 (Nat.toDigits 10 i) 0 := Nat.ofDigitChars_ten_toDigits.symm
    _ = Nat.ofDigitChars 10 (Nat.toDigits 10 j) 0 := by rw [hrepr]
    _ = j := Nat.ofDigitChars_ten_toDigits

/-- A name that is given away was not taken. -/
theorem nameFor_not_mem (scope : NameScope) (base : String) :
  scope.nameFor base ∉ scope.taken
  := by
  unfold nameFor
  split
  case isTrue => apply firstFree_not_mem (append_number_inj base)
  case isFalse h => apply h

/-! ### The search without a bound -/

/-- Whether a search that looks at one candidate after the other from a number on, for as long as
they are taken, ends, and at which number it does. -/
inductive EndsAt {α : Type} (isTaken : α → Prop) (candidate : Nat → α) : Nat → Nat → Prop where
  | free {n : Nat} (h : ¬isTaken (candidate n)) : EndsAt isTaken candidate n n
  | next {n m : Nat} (h : isTaken (candidate n)) (hnext : EndsAt isTaken candidate (n + 1) m) :
      EndsAt isTaken candidate n m

/-- A search ends at the smallest number whose candidate is not taken. -/
theorem EndsAt.isLeast {α : Type} {isTaken : α → Prop} {candidate : Nat → α} {n m : Nat}
    (h : EndsAt isTaken candidate n m) :
  IsLeast {k | n ≤ k ∧ ¬isTaken (candidate k)} m
  := by
  induction h with
  | free hfree => exact ⟨⟨Nat.le_refl _, hfree⟩, fun k hk => hk.1⟩
  | @next n m htaken _ ih =>
      obtain ⟨⟨hle, hfree⟩, hleast⟩ := ih
      refine ⟨⟨Nat.le_of_succ_le hle, hfree⟩, ?_⟩
      rintro k ⟨hk, hkfree⟩
      apply hleast ⟨_, hkfree⟩
      apply Nat.lt_of_le_of_ne hk
      rintro rfl
      apply hkfree htaken

/-- If the accepted candidate is not taken, then the search would have ended there on its own. -/
theorem endsAt_firstFree {taken : List String} {candidate : Nat → String} {tries n : Nat}
    (h : firstFree (· ∈ taken) candidate tries n ∉ taken) :
  ∃ m, EndsAt (· ∈ taken) candidate n m ∧ firstFree (· ∈ taken) candidate tries n = candidate m
  := by
  induction tries generalizing n with
  | zero => exact ⟨n, .free h, rfl⟩
  | succ tries ih =>
      rw [firstFree] at h ⊢
      split at h
      case isTrue hn =>
        obtain ⟨m, hends, hm⟩ := ih h
        rw [if_pos hn]
        exact ⟨m, .next (of_decide_eq_true hn) hends, hm⟩
      case isFalse hn =>
        rw [if_neg hn]
        exact ⟨n, .free h, rfl⟩

/-- A search among names that are different from each other and from a taken one is over before it
has seen as many as are taken. -/
theorem EndsAt.lt_length {taken : List String} {candidate : Nat → String} {n m : Nat}
    (h : EndsAt (· ∈ taken) candidate n m)
    (hcandidate : ∀ i j, candidate i = candidate j → i = j) {base : String} (hbase : base ∈ taken)
    (hne : ∀ k, candidate k ≠ base) :
  m < n + taken.length
  := by
  -- The names that are passed over are taken, and none of them is `base`.
  have hcount : m - n ≤ (taken.erase base).length := by
    apply le_length_of_taken hcandidate
    intro i hi
    rw [List.mem_erase_of_ne (hne (n + i))]
    by_contra hfree
    have hle := h.isLeast.2 ⟨Nat.le_add_right n i, hfree⟩
    omega
  have hpos := List.length_pos_of_mem hbase
  rw [List.length_erase_of_mem hbase] at hcount
  omega

/-- A name that is taken gets the number at which the search from `2` on ends. -/
theorem exists_number {scope : NameScope} {base : String} (h : base ∈ scope.taken) :
  ∃ n, EndsAt (· ∈ scope.taken) (fun k => base ++ toString k) 2 n
    ∧ scope.nameFor base = base ++ toString n ∧ n ≤ scope.taken.length + 1
  := by
  have hnew := scope.nameFor_not_mem base
  rw [nameFor, if_pos h] at hnew ⊢
  obtain ⟨n, hends, hn⟩ := endsAt_firstFree hnew
  have hne : ∀ k : Nat, base ++ toString k ≠ base := by
    intro k hk
    apply @Nat.toDigits_ne_nil k 10
    rw [← Nat.toList_repr]
    simpa using congrArg String.toList hk
  have hlt := hends.lt_length (append_number_inj base) h hne
  exact ⟨n, hends, hn, by omega⟩

/-! ### Runs -/

theorem assignAll_cons (scope : NameScope) (base : String) (bases : List String) :
  (scope.assignAll (base :: bases)).1
    = scope.nameFor base :: ((scope.assign base).2.assignAll bases).1 :=
  rfl

/-- Names that are given away one after the other are different, and were not taken. -/
theorem nodup_assignAll (scope : NameScope) (bases : List String) :
  (scope.assignAll bases).1.Nodup ∧ ∀ name ∈ (scope.assignAll bases).1, name ∉ scope.taken
  := by
  induction bases generalizing scope with
  | nil => exact ⟨List.nodup_nil, List.forall_mem_nil _⟩
  | cons base bases ih =>
      obtain ⟨hnodup, hrest⟩ := ih (scope.assign base).2
      have hnew (name : String) (hname : name ∈ ((scope.assign base).2.assignAll bases).1) :
          name ≠ scope.nameFor base ∧ name ∉ scope.taken := by
        simpa [assign] using hrest name hname
      rw [assignAll_cons]
      constructor
      · apply List.nodup_cons.mpr ⟨_, hnodup⟩
        intro hmem
        apply (hnew _ hmem).1 rfl
      · intro name hname
        rcases List.mem_cons.mp hname with rfl | hname
        · apply nameFor_not_mem
        · apply (hnew name hname).2

/-- Each base gets a name. -/
theorem length_assignAll (scope : NameScope) (bases : List String) :
  (scope.assignAll bases).1.length = bases.length
  := by
  induction bases generalizing scope with
  | nil => rfl
  | cons base bases ih =>
      rw [assignAll, List.length_cons, List.length_cons, ih]

/-- What is taken after a run is what was taken and what has been given away. -/
theorem taken_assignAll (scope : NameScope) (bases : List String) :
  (scope.assignAll bases).2.taken = (scope.assignAll bases).1.reverse ++ scope.taken
  := by
  induction bases generalizing scope with
  | nil => rfl
  | cons base bases ih => simp [assignAll, assign, ih]

theorem assignAll_append (scope : NameScope) (first second : List String) :
  (scope.assignAll (first ++ second)).1
    = (scope.assignAll first).1 ++ ((scope.assignAll first).2.assignAll second).1
  := by
  induction first generalizing scope with
  | nil => rfl
  | cons base first ih => simp [assignAll, ih]

/-- In a run, each name is the one that a scope with the names before it gives away. -/
theorem getElem?_assignAll {bases : List String} {i : Nat} {base : String}
    (h : bases[i]? = some base) :
  (assignAll {} bases).1[i]?
    = some (nameFor ⟨((assignAll {} bases).1.take i).reverse⟩ base)
  := by
  obtain ⟨hi, hget⟩ := List.getElem?_eq_some_iff.mp h
  have hbases : bases.take i ++ base :: bases.drop (i + 1) = bases := by
    rw [← hget, List.getElem_cons_drop, List.take_append_drop]
  have hnames := assignAll_append {} (bases.take i) (base :: bases.drop (i + 1))
  have hlength : (assignAll {} (bases.take i)).1.length = i := by
    rw [length_assignAll, List.length_take, Nat.min_eq_left (Nat.le_of_lt hi)]
  have htaken := taken_assignAll {} (bases.take i)
  rw [List.append_nil] at htaken
  rw [hbases, assignAll_cons] at hnames
  rw [hnames, List.take_left' hlength, ← htaken,
    List.getElem?_append_right (Nat.le_of_eq hlength), hlength, Nat.sub_self,
    List.getElem?_cons_zero]

/-- In each run of requests to a scope that starts empty, every request is answered by a name, and
the names are different from each other.  A name that was not given away before is the answer to
itself.  For one that was, the search for a number ends, at the smallest one from `2` on that makes
a name that was not given away before.  That number is at most the place of the request in the run,
counted from one. -/
theorem assignAll_exact (bases : List String) :
  let names := (assignAll {} bases).1
  names.length = bases.length ∧ names.Nodup
    ∧ ∀ (i : Nat) (base : String), bases[i]? = some base →
      ∃ name, names[i]? = some name
        ∧ (base ∉ names.take i → name = base)
        ∧ (base ∈ names.take i →
          ∃ n, EndsAt (· ∈ names.take i) (fun k => base ++ toString k) 2 n
            ∧ IsLeast {k | 2 ≤ k ∧ base ++ toString k ∉ names.take i} n
            ∧ name = base ++ toString n ∧ n ≤ i + 1)
  := by
  intro names
  refine ⟨length_assignAll {} bases, (nodup_assignAll {} bases).1, ?_⟩
  intro i base hbase
  refine ⟨_, getElem?_assignAll hbase, ?_, ?_⟩
  · intro hnew
    rw [nameFor, if_neg (by simpa using hnew)]
  · intro hold
    obtain ⟨n, hends, hn, hle⟩ := @exists_number ⟨(names.take i).reverse⟩ base (by simpa using hold)
    simp only [List.mem_reverse] at hends
    rw [List.length_reverse] at hle
    have htake := List.length_take_le i names
    exact ⟨n, hends, hends.isLeast, hn, by omega⟩

/-- The number that a name gets passes over those that other requests have used up. -/
theorem assignAll_exact_repeated :
  let names := ["A", "A2", "A22", "A3", "B"]
  (assignAll {} ["A", "A", "A2", "A", "B"]).1 = names
    ∧ (∃ n, EndsAt (· ∈ names.take 3) (fun k => "A" ++ toString k) 2 n
      ∧ IsLeast {k | 2 ≤ k ∧ "A" ++ toString k ∉ names.take 3} n
      ∧ "A3" = "A" ++ toString n ∧ n ≤ 4)
  := by
  intro names
  have hnames : (assignAll {} ["A", "A", "A2", "A", "B"]).1 = names := by decide
  obtain ⟨-, -, hanswer⟩ := assignAll_exact ["A", "A", "A2", "A", "B"]
  rw [hnames] at hanswer
  obtain ⟨name, hname, -, hnumber⟩ := hanswer 3 "A" rfl
  obtain rfl : "A3" = name := Option.some.inj hname
  exact ⟨hnames, hnumber (by decide)⟩

end NameScope

end ServiceBindings
