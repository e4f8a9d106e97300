import Mathlib.Data.List.Nodup
import Mathlib.Data.List.Perm.Basic
import ServiceBindings.Proofs.Route.Outline

/-!
# Groups of routes

The routes at a node fall into groups: those that end there, those that go on with the same
character, and those that go on with a capture.  Whatever is collected from a node is collected
group by group.  Routes of one group start alike, so they read alike exactly if they do so after
what they share.
-/

namespace ServiceBindings

/-! ### Groups of a list -/

/-- A list falls into the groups of its items with the same key. -/
theorem perm_flatMap_filter {α β : Type} [DecidableEq β] (key : α → β) {keys : List β}
    (hkeys : keys.Nodup) (items : List α) (h : ∀ a ∈ items, key a ∈ keys) :
  (keys.flatMap fun k => items.filter fun a => key a = k).Perm items
  := by
  induction keys generalizing items with
  | nil =>
      obtain rfl : items = [] := by
        apply List.eq_nil_iff_forall_not_mem.mpr
        intro a ha
        cases h a ha
      apply List.Perm.refl
  | cons first keys ih =>
      obtain ⟨hfirst, hkeys⟩ := List.nodup_cons.mp hkeys
      have hrest : (keys.flatMap fun k => items.filter fun a => key a = k)
          = keys.flatMap fun k =>
              (items.filter fun a => !decide (key a = first)).filter fun a => key a = k := by
        apply List.flatMap_congr
        intro k hk
        rw [List.filter_filter]
        apply List.filter_congr
        intro a _
        have hne : key a = k → key a ≠ first := by
          rintro rfl rfl
          apply hfirst hk
        by_cases ha : key a = k
        · simp [ha, ha ▸ hne ha]
        · simp [ha]
      rw [List.flatMap_cons, hrest]
      apply List.Perm.trans _ (List.filter_append_perm (fun a => decide (key a = first)) items)
      apply List.Perm.append_left
      apply ih hkeys _
      intro a ha
      obtain ⟨ha, hne⟩ := List.mem_filter.mp ha
      apply (List.mem_cons.mp (h a ha)).resolve_left
      simpa using hne

/-! ### Items like an earlier one -/

section Repeats

variable {α β : Type} {alike : α → α → Bool}

/-- The items of a list that are like an earlier one, each with the first item that it is like; the
first argument holds the items in front of the list. -/
def repeats (alike : α → α → Bool) : List α → List α → List (α × α)
  | _, [] => []
  | before, item :: items =>
    ((before.find? (alike · item)).map (·, item)).toList ++ repeats alike (before ++ [item]) items

/-- An item comes with the first item before it that it is like. -/
theorem mem_repeats {before items : List α} {pair : α × α} :
  pair ∈ repeats alike before items
    ↔ ∃ earlier later, items = earlier ++ pair.2 :: later
      ∧ (before ++ earlier).find? (alike · pair.2) = some pair.1
  := by
  induction items generalizing before with
  | nil => simp [repeats]
  | cons item items ih =>
      rw [repeats, List.mem_append, ih, Option.mem_toList, Option.map_eq_some_iff]
      constructor
      · rintro (⟨first, hfirst, rfl⟩ | ⟨earlier, later, rfl, hfind⟩)
        · use [], items, rfl
          simpa using hfirst
        · use item :: earlier, later, rfl
          simpa using hfind
      · rintro ⟨_ | ⟨first, earlier⟩, later, heq, hfind⟩
        · obtain ⟨rfl, rfl⟩ := List.cons.inj heq
          left
          use pair.1
          simpa using hfind
        · obtain ⟨rfl, rfl⟩ := List.cons.inj heq
          right
          use earlier, later, rfl
          simpa using hfind

/-- If no item is like an earlier one, then no two are alike. -/
theorem pairwise_of_repeats_eq_nil {before items : List α} (h : repeats alike before items = []) :
  (∀ a ∈ before, ∀ b ∈ items, alike a b = false) ∧ items.Pairwise fun a b => alike a b = false
  := by
  induction items generalizing before with
  | nil => simp
  | cons item items ih =>
      rw [repeats, List.append_eq_nil_iff, Option.toList_eq_nil_iff, Option.map_eq_none_iff,
        List.find?_eq_none] at h
      obtain ⟨hbefore, hpairwise⟩ := ih h.2
      constructor
      · intro a ha b hb
        obtain rfl | hb := List.mem_cons.mp hb
        · simpa using h.1 a ha
        · apply hbefore a (List.mem_append_left _ ha) b hb
      · rw [List.pairwise_cons]
        use hbefore item (by simp), hpairwise

/-- Where items are only like items of the same group, each group can be looked at by itself. -/
theorem repeats_filter (p : α → Bool) (h : ∀ a b, alike a b = true → p a = p b)
    (before items : List α) :
  (repeats alike before items).filter (fun pair => p pair.2)
    = repeats alike (before.filter p) (items.filter p)
  := by
  induction items generalizing before with
  | nil => rfl
  | cons item items ih =>
      rw [repeats, List.filter_append, ih, List.filter_append, List.filter_singleton]
      cases hitem : p item with
      | false =>
          have hnone : ((before.find? (alike · item)).map (·, item)).toList.filter
              (fun pair => p pair.2) = [] := by
            rw [List.filter_eq_nil_iff]
            intro pair hpair
            obtain ⟨first, -, rfl⟩ := Option.map_eq_some_iff.mp (Option.mem_toList.mp hpair)
            simp [hitem]
          rw [hnone, List.filter_cons_of_neg (by simp [hitem])]
          simp
      | true =>
          have hfind : (before.filter p).find? (alike · item) = before.find? (alike · item) := by
            rw [List.find?_filter]
            congr 1
            funext a
            cases halike : alike a item with
            | false => simp
            | true => simp [h a item halike, hitem]
          have hall : ((before.find? (alike · item)).map (·, item)).toList.filter
              (fun pair => p pair.2) = ((before.find? (alike · item)).map (·, item)).toList := by
            rw [List.filter_eq_self]
            intro pair hpair
            obtain ⟨first, -, rfl⟩ := Option.map_eq_some_iff.mp (Option.mem_toList.mp hpair)
            apply hitem
          rw [hall, List.filter_cons_of_pos hitem, repeats, hfind]
          rfl

/-- Items may be replaced by others that are alike where they are. -/
theorem repeats_map {alike' : β → β → Bool} (f : α → β) (before items : List α)
    (h : ∀ a ∈ before ++ items, ∀ b ∈ items, alike' (f a) (f b) = alike a b) :
  repeats alike' (before.map f) (items.map f) = (repeats alike before items).map (Prod.map f f)
  := by
  induction items generalizing before with
  | nil => rfl
  | cons item items ih =>
      have hrest := ih (before ++ [item]) (by
        intro a ha b hb
        apply h a (by simpa using ha) b (List.mem_cons_of_mem _ hb))
      have hfind : (before.map f).find? (alike' · (f item))
          = (before.find? (alike · item)).map f := by
        rw [List.find?_map, ← List.head?_filter, ← List.head?_filter]
        congr 2
        apply List.filter_congr
        intro a ha
        apply h a (List.mem_append_left _ ha) item List.mem_cons_self
      rw [List.map_append, List.map_singleton] at hrest
      rw [List.map_cons, repeats, hrest, repeats, List.map_append, hfind]
      cases before.find? (alike · item) <;> rfl

end Repeats

/-- Steps that start alike read alike exactly if they do so after that. -/
theorem outline_drop_eq_iff {first second : List Step} {count : Nat}
    (h : outline (first.take count) = outline (second.take count)) :
  outline (first.drop count) = outline (second.drop count) ↔ outline first = outline second
  := by
  have hsplit (steps : List Step) :
      outline steps = outline (steps.take count) ++ outline (steps.drop count) := by
    rw [outline, outline, outline, ← List.map_append, List.take_append_drop]
  rw [hsplit first, hsplit second, h, List.append_cancel_left_eq]

namespace RouteNode

/-! ### Groups of remainders -/

/-- What a remainder goes on with: nothing, a character, or a capture. -/
def nextOutline (route : Remainder) : Option (Option Char) :=
  route.2.head?.map Step.outline

variable {depth : Nat} {routes : List Remainder} {route other : Remainder}

theorem nextOutline_eq_head? (route : Remainder) : nextOutline route = (outline route.2).head? := by
  rw [nextOutline, outline, List.head?_map]

theorem nextOutline_eq_none : nextOutline route = none ↔ route.2 = [] := by
  rw [nextOutline, Option.map_eq_none_iff, List.head?_eq_none_iff]

theorem nextOutline_eq_char {c : Char} :
  nextOutline route = some (some c) ↔ route.2.head? = some (.char c)
  := by
  obtain ⟨terminal, steps⟩ := route
  match steps with
  | [] => simp [nextOutline]
  | .char _ :: _ => simp [nextOutline, Step.outline]
  | .capture _ :: _ => simp [nextOutline, Step.outline]

theorem nextOutline_eq_capture :
  nextOutline route = some none ↔ ∃ name rest, route.2 = .capture name :: rest
  := by
  obtain ⟨terminal, steps⟩ := route
  match steps with
  | [] => simp [nextOutline]
  | .char _ :: _ => simp [nextOutline, Step.outline]
  | .capture _ :: _ => simp [nextOutline, Step.outline]

theorem startingWith_eq_filter (routes : List Remainder) (c : Char) :
  startingWith routes c = routes.filter fun route => nextOutline route = some (some c)
  := by
  apply List.filter_congr
  intro route _
  rw [decide_eq_decide, nextChar_eq_some, nextOutline_eq_char]

theorem filterMap_ended_eq (routes : List Remainder) :
  routes.filterMap ended? = (routes.filter fun route => nextOutline route = none).map (·.1)
  := by
  rw [filterMap_ended]
  congr 1
  apply List.filter_congr
  intro route _
  rw [Bool.eq_iff_iff, List.isEmpty_iff, decide_eq_true_iff, nextOutline_eq_none]

theorem afterCapture_eq_map (routes : List Remainder) :
  afterCapture routes
    = (routes.filter fun route => nextOutline route = some none).map (advance 1)
  := by
  induction routes with
  | nil => rfl
  | cons route routes ih =>
      obtain ⟨terminal, steps⟩ := route
      match steps with
      | .capture name :: steps =>
          rw [List.filter_cons_of_pos (by rfl), List.map_cons, ← ih]
          rfl
      | .char c :: steps =>
          rw [List.filter_cons_of_neg (by simp [nextOutline, Step.outline]), ← ih]
          rfl
      | [] =>
          rw [List.filter_cons_of_neg (by simp [nextOutline]), ← ih]
          rfl

theorem advance_mem_afterCapture {routes : List Remainder} {route : Remainder}
    (hroute : route ∈ routes) (h : nextOutline route = some none) :
  advance 1 route ∈ afterCapture routes
  := by
  rw [afterCapture_eq_map]
  apply List.mem_map_of_mem (List.mem_filter.mpr ⟨hroute, decide_eq_true h⟩)

/-- The groups of a node: the routes that end there, those below each literal edge, and those below
the parameter edge. -/
theorem perm_groups {α : Type} (next : α → Option (Option Char)) {chars : List Char}
    (hchars : chars.Nodup) (items : List α)
    (h : ∀ a ∈ items, ∀ c, next a = some (some c) → c ∈ chars) :
  ((items.filter fun a => next a = none)
    ++ (chars.flatMap fun c => items.filter fun a => next a = some (some c))
    ++ items.filter fun a => next a = some none).Perm items
  := by
  have hsome : (chars.map fun c => some (some c)).Nodup :=
    List.Nodup.map (fun _ _ h => Option.some.inj (Option.some.inj h)) hchars
  have hkeys : (none :: (chars.map fun c => some (some c)) ++ [some none]).Nodup := by
    simp [List.nodup_append, List.nodup_cons, hsome]
  have hgroups := perm_flatMap_filter next hkeys items (by
    intro a ha
    match hnext : next a with
    | none => simp
    | some none => simp
    | some (some c) => simp [h a ha c hnext])
  simpa [List.flatMap_append, List.flatMap_map] using hgroups

/-- The routes below a literal edge start alike. -/
theorem outline_take_literal {c : Char} (hroute : route ∈ startingWith routes c)
    (hother : other ∈ startingWith routes c) :
  outline (route.2.take (literalEdge depth routes c).1.length)
    = outline (other.2.take (literalEdge depth routes c).1.length)
  := by
  have htake {member : Remainder} (hmember : member ∈ startingWith routes c) :
      member.2.take (literalEdge depth routes c).1.length
        = (literalEdge depth routes c).1.map .char := by
    rw [steps_eq_sharedText hmember]
    apply List.take_left' (List.length_map _)
  rw [htake hroute, htake hother]

/-- The routes below a parameter edge start alike. -/
theorem outline_take_capture (hroute : nextOutline route = some none)
    (hother : nextOutline other = some none) :
  outline (route.2.take 1) = outline (other.2.take 1)
  := by
  obtain ⟨name, rest, hsteps⟩ := nextOutline_eq_capture.mp hroute
  obtain ⟨name', rest', hsteps'⟩ := nextOutline_eq_capture.mp hother
  rw [hsteps, hsteps']
  rfl

/-- A walk that ends where a route ends does so for the routes that read alike. -/
theorem Walks.alike {path : List Char} {chosen : List Step → Bool}
    {more : List (String × List Char)} (h : Walks depth routes path chosen more)
    (hroute : route ∈ routes) (hother : other ∈ routes) (hchosen : chosen route.2 = true) :
  chosen other.2 = true ↔ outline other.2 = outline route.2
  := by
  induction h generalizing route other with
  | finish =>
      rw [List.isEmpty_iff.mp hchosen, List.isEmpty_iff]
      apply List.map_eq_nil_iff.symm
  | leaf => cases hchosen
  | @literal depth routes c _ _ chosen _ _ _ _ ih =>
      obtain ⟨hhead, hchosen⟩ := chosenAfterText_eq_true.mp hchosen
      have hgroup := mem_startingWith.mpr ⟨hroute, hhead⟩
      rw [chosenAfterText_eq_true]
      constructor
      · rintro ⟨hhead', hchosen'⟩
        have hgroup' := mem_startingWith.mpr ⟨hother, hhead'⟩
        apply (outline_drop_eq_iff (outline_take_literal hgroup' hgroup)).mp
        apply (ih (List.mem_map_of_mem hgroup) (List.mem_map_of_mem hgroup') hchosen).mp hchosen'
      · intro houtline
        have hnext : nextOutline other = some (some c) := by
          rw [nextOutline_eq_head?, houtline, ← nextOutline_eq_head?, nextOutline_eq_char]
          apply hhead
        have hgroup' := mem_startingWith.mpr ⟨hother, nextOutline_eq_char.mp hnext⟩
        use nextOutline_eq_char.mp hnext
        apply (ih (List.mem_map_of_mem hgroup) (List.mem_map_of_mem hgroup') hchosen).mpr
        apply (outline_drop_eq_iff (outline_take_literal hgroup' hgroup)).mpr houtline
  | parameter _ _ _ _ ih =>
      obtain ⟨terminal, steps⟩ := route
      obtain ⟨terminal', steps'⟩ := other
      obtain ⟨name, steps, rfl, hchosen⟩ := chosenAfterCapture_eq_true.mp hchosen
      have hafter : (terminal, steps) ∈ _ := mem_afterCapture.mpr ⟨name, hroute⟩
      rw [chosenAfterCapture_eq_true]
      constructor
      · rintro ⟨name', steps', rfl, hchosen'⟩
        have hafter' : (terminal', steps') ∈ _ := mem_afterCapture.mpr ⟨name', hother⟩
        apply congrArg (none :: ·) ((ih hafter hafter' hchosen).mp hchosen')
      · intro houtline
        have hnext : nextOutline (terminal', steps') = some none := by
          rw [nextOutline_eq_head?, houtline]
          rfl
        obtain ⟨name', steps', rfl⟩ := nextOutline_eq_capture.mp hnext
        have hafter' : (terminal', steps') ∈ _ := mem_afterCapture.mpr ⟨name', hother⟩
        use name', steps', rfl
        apply (ih hafter hafter' hchosen).mpr (List.cons.inj houtline).2
  | nowhere => cases hchosen

end RouteNode

end ServiceBindings
