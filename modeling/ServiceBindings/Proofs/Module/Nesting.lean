import Mathlib.Data.List.Flatten
import Mathlib.Data.List.Nodup
import Mathlib.Data.List.Pairwise
import Mathlib.Data.List.Perm.Basic
import Mathlib.Logic.Relation
import ServiceBindings.Proofs.Module.Tree

/-!
# Nesting of modules

A module tree is built from the crate root by making modules in modules that exist, by adding texts
and by changing documentation.  Then each module but the root is a child of exactly one module,
which was made before it, and the root is never inline.
-/

namespace ServiceBindings

/-- The module that an item is. -/
def ModuleItem.child? : ModuleItem → Option ModuleId
  | text _ => none
  | child id => some id

theorem ModuleItem.child?_child (id : ModuleId) : (child id).child? = some id := rfl

namespace ModuleTree

/-- All modules of a tree. -/
def ids (tree : ModuleTree) : List ModuleId :=
  (List.range tree.size).map ModuleId.mk

/-- What a module holds. -/
def items (tree : ModuleTree) (id : ModuleId) : List ModuleItem :=
  ((tree.get? id).map (·.items)).getD []

/-- Whether a module is written inside its parent. -/
def isInline (tree : ModuleTree) (id : ModuleId) : Bool :=
  ((tree.get? id).map (·.inline)).getD false

/-- Whether a module is a child of another one. -/
def Holds (tree : ModuleTree) (parent child : ModuleId) : Prop :=
  child ∈ tree.children parent

/-- Whether a tree is made by adding modules and texts and by changing what is known about a
module. -/
inductive Built : ModuleTree → Prop where
  | empty : Built .empty
  | addChild {tree : ModuleTree} {parent : ModuleId} (name : String) (visibility : Visibility)
      (inline : Bool) : Built tree → parent.index < tree.size →
      Built (tree.addChild parent name visibility inline).2
  | appendText {tree : ModuleTree} (id : ModuleId) (body : String) : Built tree →
      Built (tree.appendText id body)
  | setDoc {tree : ModuleTree} (id : ModuleId) (doc : Option String) : Built tree →
      Built (tree.setDoc id doc)
  | setOrigin {tree : ModuleTree} (id : ModuleId) (origin : NamespaceId) : Built tree →
      Built (tree.setOrigin id origin)

/-- Whether each module but the root is a child of exactly one module, which was made before it. -/
structure Nested (tree : ModuleTree) : Prop where
  root_lt : 0 < tree.size
  root_open : tree.isInline .root = false
  child_gt : ∀ m child, tree.Holds m child → m.index < child.index
  children_perm : (tree.ids.flatMap tree.children).Perm tree.ids.tail

/-! ### Modules -/

variable {tree : ModuleTree}

@[simp] theorem mem_ids {id : ModuleId} : id ∈ tree.ids ↔ id.index < tree.size := by
  rw [ids, List.mem_map]
  constructor
  · rintro ⟨index, hindex, rfl⟩
    apply List.mem_range.mp hindex
  · intro h
    exact ⟨id.index, List.mem_range.mpr h, rfl⟩

theorem ids_nodup (tree : ModuleTree) : tree.ids.Nodup := by
  apply List.nodup_range.map
  intro first second h
  apply congrArg ModuleId.index h

/-- The root comes first. -/
theorem ids_eq_cons (h : 0 < tree.size) : tree.ids = .root :: tree.ids.tail := by
  rw [ids]
  obtain ⟨n, hn⟩ := Nat.exists_eq_add_of_lt h
  rw [hn, Nat.zero_add, List.range_succ_eq_map]
  rfl

/-- A module that does not exist holds nothing. -/
theorem items_eq_nil {id : ModuleId} (h : tree.size ≤ id.index) : tree.items id = [] := by
  rw [items, get?, List.getElem?_eq_none h]
  rfl

/-- The children of a module are its items that are modules. -/
theorem children_eq_filterMap (id : ModuleId) :
  tree.children id = (tree.items id).filterMap (·.child?)
  := by
  have hchildren (m : Module) : m.children = m.items.filterMap (·.child?) := by
    rw [Module.children]
    apply List.filterMap_congr
    intro item _
    cases item <;> rfl
  rw [children, items, funext hchildren]
  cases tree.get? id <;> rfl

theorem Holds.index_lt {parent child : ModuleId} (h : tree.Holds parent child) :
  parent.index < tree.size
  := by
  rw [← Nat.not_le]
  intro hle
  rw [Holds, children_eq_filterMap, items_eq_nil hle] at h
  cases h

/-- If no value comes twice, then each comes from one element. -/
theorem eq_of_mem_flatMap {α β : Type} {all : List α} {f : α → List β}
    (hnodup : (all.flatMap f).Nodup) {a b : α} (ha : a ∈ all) (hb : b ∈ all) {x : β}
    (hxa : x ∈ f a) (hxb : x ∈ f b) :
  a = b
  := by
  have hdisjoint := (List.nodup_flatMap.mp hnodup).2
  have hsymm : Std.Symm (Function.onFun List.Disjoint f) := ⟨fun _ _ h => List.disjoint_symm h⟩
  by_contra hne
  apply hdisjoint.forall ha hb hne hxa hxb

/-! ### Building -/

theorem children_modify (id : ModuleId) {f : Module → Module}
    (hf : ∀ m, (f m).children = m.children) :
  (tree.modify id f).children = tree.children
  := by
  funext other
  rw [children, map_get?_modify tree id hf other]
  rfl

theorem isInline_modify (id : ModuleId) {f : Module → Module}
    (hf : ∀ m, (f m).inline = m.inline) :
  (tree.modify id f).isInline = tree.isInline
  := by
  funext other
  rw [isInline, map_get?_modify tree id hf other]
  rfl

/-- A change of a module that keeps its children and whether it is inline keeps the nesting. -/
theorem Nested.modify (h : tree.Nested) (id : ModuleId) {f : Module → Module}
    (hchildren : ∀ m, (f m).children = m.children) (hinline : ∀ m, (f m).inline = m.inline) :
  (tree.modify id f).Nested
  := by
  have hsame := @children_modify tree id f hchildren
  constructor
  · rw [size_modify]
    apply h.root_lt
  · rw [isInline_modify id hinline]
    apply h.root_open
  · intro m child
    rw [Holds, hsame]
    apply h.child_gt
  · rw [ids, size_modify, hsame]
    apply h.children_perm

/-- The modules of a tree before another one is made are among those after it. -/
theorem get?_append (child : Module) {id : ModuleId} (h : id.index < tree.size) :
  get? ⟨tree.modules ++ [child]⟩ id = tree.get? id :=
  List.getElem?_append_left h

/-- A module that is made is the last child of its parent. -/
theorem children_addChild {parent : ModuleId} (hparent : parent.index < tree.size) (name : String)
    (visibility : Visibility) (inline : Bool) (other : ModuleId) :
  (tree.addChild parent name visibility inline).2.children other
    = if other = parent then tree.children other ++ [⟨tree.size⟩] else tree.children other
  := by
  rw [addChild, pushItem, children, get?_modify]
  by_cases hother : other = parent
  · subst hother
    have hget : tree.get? other = some tree.modules[other.index] := List.getElem?_eq_getElem hparent
    rw [if_pos rfl, if_pos rfl, get?_append _ hparent, children, hget]
    simp [Module.children]
  · rw [if_neg hother, if_neg hother]
    rcases Nat.lt_trichotomy other.index tree.size with hlt | heq | hgt
    · rw [get?_append _ hlt]
      rfl
    · rw [children, get?, get?, heq, size, List.getElem?_concat_length,
        List.getElem?_eq_none (Nat.le_refl _)]
      rfl
    · rw [children, get?, get?, List.getElem?_eq_none, List.getElem?_eq_none (Nat.le_of_lt hgt)]
      rw [List.length_append]
      apply hgt

@[simp] theorem isInline_pushItem (id : ModuleId) (item : ModuleItem) :
  (tree.pushItem id item).isInline = tree.isInline :=
  isInline_modify id fun _ => rfl

@[simp] theorem isInline_setDoc (id : ModuleId) (doc : Option String) :
  (tree.setDoc id doc).isInline = tree.isInline :=
  isInline_modify id fun _ => rfl

@[simp] theorem isInline_setOrigin (id : ModuleId) (origin : NamespaceId) :
  (tree.setOrigin id origin).isInline = tree.isInline :=
  isInline_modify id fun _ => rfl

/-- The modules of a tree stay inline or not when another one is made. -/
theorem isInline_addChild {other : ModuleId} (h : other.index < tree.size) (parent : ModuleId)
    (name : String) (visibility : Visibility) (inline : Bool) :
  (tree.addChild parent name visibility inline).2.isInline other = tree.isInline other
  := by
  rw [addChild, isInline_pushItem, isInline, get?_append _ h]
  rfl

theorem isInline_addChild_self (parent : ModuleId) (name : String) (visibility : Visibility)
    (inline : Bool) :
  (tree.addChild parent name visibility inline).2.isInline ⟨tree.size⟩ = inline
  := by
  rw [addChild, isInline_pushItem, isInline, get?, size, List.getElem?_concat_length]
  rfl

/-- One value more for one element of a list. -/
theorem perm_flatMap_push {α β : Type} [DecidableEq α] {all : List α} (hnodup : all.Nodup) {a : α}
    (ha : a ∈ all) (f : α → List β) (b : β) :
  (all.flatMap fun x => if x = a then f x ++ [b] else f x).Perm (all.flatMap f ++ [b])
  := by
  obtain ⟨before, after, rfl⟩ := List.append_of_mem ha
  have hsame (part : List α) (hpart : a ∉ part) :
      (part.flatMap fun x => if x = a then f x ++ [b] else f x) = part.flatMap f := by
    apply List.flatMap_congr
    intro x hx
    apply if_neg
    rintro rfl
    apply hpart hx
  rw [List.nodup_middle, List.nodup_cons, List.mem_append, not_or] at hnodup
  rw [List.flatMap_append, List.flatMap_append, List.flatMap_cons, List.flatMap_cons, if_pos rfl,
    hsame before hnodup.1.1, hsame after hnodup.1.2]
  simp only [List.append_assoc]
  apply List.Perm.append_left
  apply List.Perm.append_left
  apply List.perm_append_comm

/-- A module that is made in a module that exists is nested there. -/
theorem Nested.addChild (h : tree.Nested) {parent : ModuleId} (hparent : parent.index < tree.size)
    (name : String) (visibility : Visibility) (inline : Bool) :
  (tree.addChild parent name visibility inline).2.Nested
  := by
  have hchildren := children_addChild hparent name visibility inline
  have hids : (tree.addChild parent name visibility inline).2.ids
      = tree.ids ++ [⟨tree.size⟩] := by
    rw [ids, size_addChild, List.range_succ, List.map_append]
    rfl
  constructor
  · rw [size_addChild]
    apply Nat.succ_pos
  · have hroot : ModuleId.root.index < tree.size := h.root_lt
    rw [isInline_addChild hroot]
    apply h.root_open
  · intro m child hchild
    rw [Holds, hchildren] at hchild
    split at hchild
    case isTrue hm =>
      rcases List.mem_append.mp hchild with hchild | hchild
      · apply h.child_gt m child hchild
      · cases List.mem_singleton.mp hchild
        rw [hm]
        apply hparent
    case isFalse => apply h.child_gt m child hchild
  · have hitems : tree.items ⟨tree.size⟩ = [] := items_eq_nil (Nat.le_refl _)
    have hnew : tree.children ⟨tree.size⟩ = [] := by
      rw [children_eq_filterMap, hitems]
      rfl
    have hne : (⟨tree.size⟩ : ModuleId) ≠ parent := by
      rintro rfl
      apply Nat.lt_irrefl _ hparent
    have htail (id : ModuleId) : (tree.ids ++ [id]).tail = tree.ids.tail ++ [id] := by
      rw [ids_eq_cons h.root_lt]
      rfl
    rw [hids, List.flatMap_append, htail, List.flatMap_singleton, hchildren, if_neg hne, hnew,
      List.append_nil, funext hchildren]
    apply (perm_flatMap_push tree.ids_nodup (mem_ids.mpr hparent) tree.children ⟨tree.size⟩).trans
    apply h.children_perm.append_right

/-- A tree that is built is nested. -/
theorem Built.nested (h : tree.Built) : tree.Nested := by
  induction h with
  | empty =>
      refine ⟨by decide, rfl, ?_, List.Perm.refl _⟩
      intro m child hchild
      obtain ⟨index⟩ := m
      cases index <;> cases hchild
  | addChild name visibility inline _ hparent ih => apply ih.addChild hparent
  | appendText id body _ ih =>
      apply ih.modify id
      · intro m
        simp [Module.children]
      · intro m
        rfl
  | setDoc id doc _ ih => exact ih.modify id (fun _ => rfl) fun _ => rfl
  | setOrigin id origin _ ih => exact ih.modify id (fun _ => rfl) fun _ => rfl

namespace Nested

variable (h : tree.Nested)
include h

/-- A child exists and is not the root. -/
theorem mem_tail {parent child : ModuleId} (hchild : tree.Holds parent child) :
  child ∈ tree.ids.tail
  := by
  apply h.children_perm.mem_iff.mp
  rw [List.mem_flatMap]
  exact ⟨parent, mem_ids.mpr hchild.index_lt, hchild⟩

theorem child_lt {parent child : ModuleId} (hchild : tree.Holds parent child) :
  child.index < tree.size :=
  mem_ids.mp (List.mem_of_mem_tail (h.mem_tail hchild))

/-- A module that is not the root has a parent. -/
theorem exists_parent {child : ModuleId} (hlt : child.index < tree.size) (hne : child ≠ .root) :
  ∃ parent, tree.Holds parent child
  := by
  have hmem : child ∈ tree.ids.tail := by
    have hmem := mem_ids.mpr hlt
    rw [ids_eq_cons h.root_lt] at hmem
    apply (List.mem_cons.mp hmem).resolve_left hne
  obtain ⟨parent, -, hchild⟩ := List.mem_flatMap.mp (h.children_perm.mem_iff.mpr hmem)
  exact ⟨parent, hchild⟩

/-- A module has one parent at most. -/
theorem parent_unique {parent other child : ModuleId} (hparent : tree.Holds parent child)
    (hother : tree.Holds other child) :
  parent = other
  := by
  have hnodup : (tree.ids.flatMap tree.children).Nodup :=
    h.children_perm.nodup_iff.mpr tree.ids_nodup.tail
  apply eq_of_mem_flatMap hnodup (mem_ids.mpr hparent.index_lt) (mem_ids.mpr hother.index_lt)
    hparent hother

end Nested

end ModuleTree

end ServiceBindings
