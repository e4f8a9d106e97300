import Mathlib.Data.List.Induction
import ServiceBindings.Module.Path

/-!
# Reading references back

A reference from one module to an item of another one reads as its steps again, and following the
steps from the first module leads to the second one.  For that the parts of the target and the item
have to be usable as steps: a text that is empty, that holds the separator or that leads to the
parent is not.  The module that the reference stands in may have any path.  No other reference to
the item has fewer steps.
-/

namespace ServiceBindings

namespace ModulePath

/-- Whether a text names a module or an item in a reference. -/
structure IsName (name : String) : Prop where
  ne_empty : name ≠ ""
  ne_super : name ≠ "super"
  no_colon : ':' ∉ name.toList

instance (name : String) : Decidable (IsName name) :=
  decidable_of_iff (name ≠ "" ∧ name ≠ "super" ∧ ':' ∉ name.toList)
    ⟨fun ⟨hempty, hsuper, hcolon⟩ => ⟨hempty, hsuper, hcolon⟩,
      fun ⟨hempty, hsuper, hcolon⟩ => ⟨hempty, hsuper, hcolon⟩⟩

/-! ### Following steps -/

/-- As many steps to the parent as there are parts drop these parts. -/
theorem follow_up (shared parts rest : List String) :
  follow (shared ++ parts) (List.replicate parts.length "super" ++ rest) = follow shared rest
  := by
  induction parts using List.reverseRecOn with
  | nil => simp
  | append_singleton parts part ih =>
      rw [List.length_append, List.length_singleton, List.replicate_succ, List.cons_append, follow,
        if_pos rfl, ← List.append_assoc]
      simpa using ih

/-- Steps that name modules lead down to them. -/
theorem follow_down {names : List String} (h : ∀ name ∈ names, name ≠ "super")
    (parts : List String) :
  follow parts names = some (parts ++ names)
  := by
  induction names generalizing parts with
  | nil => simp [follow]
  | cons name names ih =>
      rw [follow, if_neg (h name List.mem_cons_self),
        ih fun other hother => h other (List.mem_cons_of_mem _ hother)]
      simp

/-- The steps from one path to another lead there, below any parts that the two share. -/
theorem follow_steps {target : List String} (h : ∀ part ∈ target, part ≠ "super")
    (shared origin : List String) :
  follow (shared ++ origin) (steps origin target) = some (shared ++ target)
  := by
  induction origin, target using steps.induct generalizing shared with
  | case1 origin part target ih =>
      rw [steps, if_pos rfl]
      have hrest := ih (fun other hother => h other (List.mem_cons_of_mem _ hother))
        (shared ++ [part])
      simpa using hrest
  | case2 first origin second target hne =>
      rw [steps, if_neg hne, ← List.length_cons, follow_up, follow_down h]
  | case3 origin target hcons =>
      rw [steps]
      · rw [follow_up, follow_down h]
      · apply hcons

/-- The steps to a path go up, or down along parts of it. -/
theorem mem_steps {origin target : List String} {step : String} (h : step ∈ steps origin target) :
  step = "super" ∨ step ∈ target
  := by
  induction origin, target using steps.induct with
  | case1 origin part target ih =>
      rw [steps, if_pos rfl] at h
      rcases ih h with hup | hmem
      · apply Or.inl hup
      · apply Or.inr (List.mem_cons_of_mem _ hmem)
  | case2 first origin second target hne =>
      rw [steps, if_neg hne, List.mem_append, List.mem_replicate] at h
      rcases h with ⟨-, hup⟩ | hmem
      · apply Or.inl hup
      · apply Or.inr hmem
  | case3 origin target hcons =>
      rw [steps, List.mem_append, List.mem_replicate] at h
      · rcases h with ⟨-, hup⟩ | hmem
        · apply Or.inl hup
        · apply Or.inr hmem
      · apply hcons

/-! ### Reading steps -/

/-- A text without colons is a single step. -/
theorem splitSteps_of_no_colon {cs : List Char} (h : ':' ∉ cs) :
  splitSteps cs = [cs]
  := by
  induction cs with
  | nil => rfl
  | cons c cs ih =>
      rw [splitSteps, ih fun hmem => h (List.mem_cons_of_mem _ hmem)]
      intro rest hc
      cases hc
      apply absurd List.mem_cons_self h

/-- A text without colons before the separator is the first step. -/
theorem splitSteps_append {cs : List Char} (h : ':' ∉ cs) (rest : List Char) :
  splitSteps (cs ++ ':' :: ':' :: rest) = cs :: splitSteps rest
  := by
  induction cs with
  | nil => rfl
  | cons c cs ih =>
      rw [List.cons_append, splitSteps, ih fun hmem => h (List.mem_cons_of_mem _ hmem)]
      intro rest hc
      cases hc
      apply absurd List.mem_cons_self h

/-- Steps without colons are read back. -/
theorem splitSteps_joinSteps {steps : List String} (hne : steps ≠ [])
    (h : ∀ step ∈ steps, ':' ∉ step.toList) :
  (splitSteps (joinSteps steps).toList).map String.ofList = steps
  := by
  induction steps with
  | nil => apply absurd rfl hne
  | cons step rest ih =>
      have hstep := h step List.mem_cons_self
      cases rest with
      | nil => simp [joinSteps, splitSteps_of_no_colon hstep]
      | cons next rest =>
          have hrest := ih (List.cons_ne_nil _ _) fun other hother =>
            h other (List.mem_cons_of_mem _ hother)
          have hjoin : (joinSteps (step :: next :: rest)).toList
              = step.toList ++ ':' :: ':' :: (joinSteps (next :: rest)).toList := by
            simp [joinSteps, String.intercalate_cons_cons]
          rw [hjoin, splitSteps_append hstep, List.map_cons, String.ofList_toList, hrest]

/-! ### References -/

/-- Steps that are not empty are joined to an empty text only if there are none. -/
theorem joinSteps_isEmpty {steps : List String} (h : ∀ step ∈ steps, step ≠ "") :
  (joinSteps steps).isEmpty = true ↔ steps = []
  := by
  match steps with
  | [] => simp [joinSteps]
  | [step] => simpa [joinSteps] using h step List.mem_cons_self
  | step :: next :: rest => simp [joinSteps, String.intercalate_cons_cons]

/-- A reference to an item is that of the steps to its module and the item. -/
theorem itemReference_eq {path target : ModulePath} (h : ∀ part ∈ target.parts, part ≠ "")
    (item : String) :
  path.itemReference target item = joinSteps (steps path.parts target.parts ++ [item])
  := by
  have hsteps : ∀ step ∈ steps path.parts target.parts, step ≠ "" := by
    intro step hstep
    rcases mem_steps hstep with rfl | hmem
    · decide
    · apply h step hmem
  rw [itemReference]
  split
  case isTrue hempty => simp [(joinSteps_isEmpty hsteps).mp hempty, joinSteps]
  case isFalse hempty =>
    have hne : steps path.parts target.parts ≠ [] :=
      fun hnil => hempty ((joinSteps_isEmpty hsteps).mpr hnil)
    simp [joinSteps, String.intercalate_append_of_ne_nil hne]

/-- The steps of a reference to an item are those to its module, and the item. -/
theorem splitSteps_itemReference (path : ModulePath) {target : ModulePath} {item : String}
    (htarget : ∀ part ∈ target.parts, IsName part) (hitem : IsName item) :
  (splitSteps (path.itemReference target item).toList).map String.ofList
    = steps path.parts target.parts ++ [item]
  := by
  rw [itemReference_eq fun part hpart => (htarget part hpart).ne_empty]
  apply splitSteps_joinSteps
  · simp
  · intro step hstep
    rcases List.mem_append.mp hstep with hstep | hstep
    · rcases mem_steps hstep with rfl | hmem
      · decide
      · apply (htarget step hmem).no_colon
    · obtain rfl := List.mem_singleton.mp hstep
      apply hitem.no_colon

/-- The reference from a module to an item names this item there. -/
theorem resolve_itemReference (path : ModulePath) {target : ModulePath} {item : String}
    (htarget : ∀ part ∈ target.parts, IsName part) (hitem : IsName item) :
  path.resolve (path.itemReference target item) = .ok ⟨target, item⟩
  := by
  have hfollow : follow path.parts (steps path.parts target.parts) = some target.parts :=
    follow_steps (fun part hpart => (htarget part hpart).ne_super) [] path.parts
  simp [resolve, splitSteps_itemReference path htarget hitem, hitem.ne_empty, hitem.ne_super,
    hfollow]

/-! ### Shortest references -/

theorem steps_self (parts : List String) : steps parts parts = [] := by
  induction parts with
  | nil => rfl
  | cons part parts ih => rw [steps, if_pos rfl, ih]

/-- One more part at the end of the first path makes at most one step more or less. -/
theorem length_steps_concat (origin target : List String) (part : String) :
  (steps (origin ++ [part]) target).length ≤ (steps origin target).length + 1
    ∧ (steps origin target).length ≤ (steps (origin ++ [part]) target).length + 1
  := by
  induction origin, target using steps.induct with
  | case1 origin first target ih => simpa [steps] using ih
  | case2 first origin second target hne =>
      simp only [List.cons_append, steps, if_neg hne, List.length_append, List.length_replicate,
        List.length_cons, List.length_nil]
      omega
  | case3 origin target hcons =>
      match origin, target with
      | _ :: _, _ :: _ => apply absurd rfl (hcons _ _ _ _ rfl)
      | [], [] => simp [steps]
      | first :: origin, [] =>
          simp only [List.cons_append, steps, List.length_append, List.length_replicate,
            List.length_cons, List.length_nil]
          omega
      | [], second :: target =>
          rw [List.nil_append, steps]
          split
          case isTrue =>
            simp only [steps, List.length_append, List.length_replicate, List.length_cons,
              List.length_nil]
            omega
          case isFalse => simp [steps]

/-- Steps that lead from one path to another are never fewer than those of `steps`. -/
theorem length_steps_le {origin target taken : List String}
    (h : follow origin taken = some target) :
  (steps origin target).length ≤ taken.length
  := by
  induction taken generalizing origin with
  | nil =>
      obtain rfl := Option.some.inj h
      apply Nat.le_of_eq
      rw [steps_self]
  | cons step taken ih =>
      rw [follow] at h
      rw [List.length_cons]
      split at h
      case isTrue =>
        split at h
        case isTrue => cases h
        case isFalse hne =>
          rw [List.isEmpty_iff] at hne
          have hlast := (length_steps_concat origin.dropLast target (origin.getLast hne)).1
          rw [List.dropLast_concat_getLast] at hlast
          apply Nat.le_trans hlast (Nat.succ_le_succ (ih h))
      case isFalse =>
        apply Nat.le_trans (length_steps_concat origin target step).2 (Nat.succ_le_succ (ih h))

/-- A reference that names an item leads to its module before its last step. -/
theorem follow_of_resolve {path : ModulePath} {found : ItemPath} {reference : String}
    (h : path.resolve reference = .ok found) :
  follow path.parts ((splitSteps reference.toList).map String.ofList).dropLast
      = some found.module.parts
    ∧ splitSteps reference.toList ≠ []
  := by
  rw [resolve] at h
  split at h
  case isTrue => cases h
  case isFalse hitem =>
    split at h
    case h_1 => cases h
    case h_2 parts hparts =>
      cases h
      use hparts
      intro hnil
      rw [hnil] at hitem
      apply hitem rfl

/-- Reading inverts writing: whatever module a reference stands in, the reference to an item of
another module names this item there.  No reference that names the item from there has fewer
steps. -/
theorem resolve_inverts_itemReference (origin target : ModulePath) (item : String)
    (htarget : ∀ part ∈ target.parts, IsName part) (hitem : IsName item) :
  origin.resolve (origin.itemReference target item) = .ok ⟨target, item⟩
    ∧ ∀ reference, origin.resolve reference = .ok ⟨target, item⟩ →
      (splitSteps (origin.itemReference target item).toList).length
        ≤ (splitSteps reference.toList).length
  := by
  use resolve_itemReference origin htarget hitem
  intro reference hresolve
  obtain ⟨hfollow, hne⟩ := follow_of_resolve hresolve
  have hwritten : (splitSteps (origin.itemReference target item).toList).length
      = (steps origin.parts target.parts).length + 1 := by
    rw [← List.length_map (f := String.ofList), splitSteps_itemReference origin htarget hitem,
      List.length_append, List.length_singleton]
  have hshortest : (steps origin.parts target.parts).length ≤ _ := length_steps_le hfollow
  have hpos := List.length_pos_iff.mpr hne
  rw [List.length_dropLast, List.length_map] at hshortest
  omega

/-- From a module with parts that no reference could spell, to one that shares its first part and
repeats it. -/
theorem resolve_inverts_itemReference_all :
  (⟨["all", "super", "a::b"]⟩ : ModulePath).itemReference ⟨["all", "pets", "all"]⟩ "Pet"
      = "super::super::pets::all::Pet"
    ∧ (⟨["all", "super", "a::b"]⟩ : ModulePath).resolve "super::super::pets::all::Pet"
      = .ok ⟨⟨["all", "pets", "all"]⟩, "Pet"⟩
  := by
  have hreference : (⟨["all", "super", "a::b"]⟩ : ModulePath).itemReference
      ⟨["all", "pets", "all"]⟩ "Pet" = "super::super::pets::all::Pet" := by decide +kernel
  have hinverts := (resolve_inverts_itemReference ⟨["all", "super", "a::b"]⟩
    ⟨["all", "pets", "all"]⟩ "Pet" (by decide +kernel) (by decide +kernel)).1
  rw [hreference] at hinverts
  use hreference

end ModulePath

end ServiceBindings
