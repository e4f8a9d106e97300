import Mathlib.Tactic.Use
import ServiceBindings.Module.Tree

/-!
# Paths and texts of modules

What the operations on a module tree do to the path and to the texts of each module.  A module that
is made has no texts, a text that is added comes after the texts of its module, and nothing else
changes a path or a text.
-/

namespace ServiceBindings

namespace ModuleTree

/-- The texts of a module. -/
def texts (tree : ModuleTree) (id : ModuleId) : List String :=
  ((tree.get? id).map (·.texts)).getD []

variable (tree : ModuleTree) (id : ModuleId)

/-! ### Changing a module -/

theorem get?_modify (f : Module → Module) (other : ModuleId) :
  (tree.modify id f).get? other = if other = id then (tree.get? id).map f else tree.get? other
  := by
  obtain ⟨i⟩ := id
  obtain ⟨j⟩ := other
  simp only [modify, get?, List.getElem?_modify, ModuleId.mk.injEq]
  by_cases h : j = i
  · simp [h]
  · simp [h, Ne.symm h]

@[simp] theorem size_modify (f : Module → Module) : (tree.modify id f).size = tree.size :=
  List.length_modify ..

/-- What a change keeps of each module stays what it is. -/
theorem map_get?_modify {α : Type} {f : Module → Module} {view : Module → α}
    (hf : ∀ m, view (f m) = view m) (other : ModuleId) :
  ((tree.modify id f).get? other).map view = (tree.get? other).map view
  := by
  rw [get?_modify]
  split
  case isTrue h =>
    rw [h, Option.map_map]
    congr 1
    funext m
    apply hf
  case isFalse => rfl

theorem path_modify {f : Module → Module} (hf : ∀ m, (f m).path = m.path) :
  (tree.modify id f).path = tree.path
  := by
  funext other
  rw [path, map_get?_modify tree id hf other]
  rfl

theorem texts_modify {f : Module → Module} (hf : ∀ m, (f m).texts = m.texts) :
  (tree.modify id f).texts = tree.texts
  := by
  funext other
  rw [texts, map_get?_modify tree id hf other]
  rfl

@[simp] theorem size_pushItem (item : ModuleItem) : (tree.pushItem id item).size = tree.size :=
  size_modify ..

@[simp] theorem size_appendText (body : String) : (tree.appendText id body).size = tree.size :=
  size_modify ..

@[simp] theorem size_setDoc (doc : Option String) : (tree.setDoc id doc).size = tree.size :=
  size_modify ..

@[simp] theorem size_setOrigin (origin : NamespaceId) :
  (tree.setOrigin id origin).size = tree.size :=
  size_modify ..

@[simp] theorem path_pushItem (item : ModuleItem) : (tree.pushItem id item).path = tree.path :=
  path_modify tree id fun _ => rfl

@[simp] theorem path_appendText (body : String) : (tree.appendText id body).path = tree.path :=
  path_modify tree id fun _ => rfl

@[simp] theorem path_setDoc (doc : Option String) : (tree.setDoc id doc).path = tree.path :=
  path_modify tree id fun _ => rfl

@[simp] theorem path_setOrigin (origin : NamespaceId) :
  (tree.setOrigin id origin).path = tree.path :=
  path_modify tree id fun _ => rfl

@[simp] theorem texts_setDoc (doc : Option String) : (tree.setDoc id doc).texts = tree.texts :=
  texts_modify tree id fun _ => rfl

@[simp] theorem texts_setOrigin (origin : NamespaceId) :
  (tree.setOrigin id origin).texts = tree.texts :=
  texts_modify tree id fun _ => rfl

@[simp] theorem texts_pushItem_child (child : ModuleId) :
  (tree.pushItem id (.child child)).texts = tree.texts
  := by
  apply texts_modify
  intro m
  simp [Module.texts]

/-- A text that is added to a module comes last. -/
theorem texts_appendText_self (h : id.index < tree.size) (body : String) :
  (tree.appendText id body).texts id = tree.texts id ++ [body]
  := by
  have hget : tree.get? id = some tree.modules[id.index] := List.getElem?_eq_getElem h
  rw [texts, texts, appendText, pushItem, get?_modify, if_pos rfl, hget]
  simp [Module.texts]

/-- A text that is added to a module is not added to another one. -/
theorem texts_appendText_of_ne {other : ModuleId} (h : other ≠ id) (body : String) :
  (tree.appendText id body).texts other = tree.texts other
  := by
  rw [texts, appendText, pushItem, get?_modify, if_neg h]
  rfl

/-- A text stays when another one is added. -/
theorem mem_texts_appendText (body : String) {other : ModuleId} {text : String}
    (h : text ∈ tree.texts other) :
  text ∈ (tree.appendText id body).texts other
  := by
  by_cases hother : other = id
  · subst hother
    have hlt : other.index < tree.size := by
      rw [← Nat.not_le]
      intro hle
      rw [texts, get?, List.getElem?_eq_none hle] at h
      cases h
    rw [texts_appendText_self tree other hlt]
    apply List.mem_append_left _ h
  · rw [texts_appendText_of_ne tree id hother]
    apply h

/-! ### Making a module -/

variable (name : String) (visibility : Visibility) (inline : Bool)

@[simp] theorem size_addChild :
  (tree.addChild id name visibility inline).2.size = tree.size + 1
  := by
  rw [addChild, size_pushItem]
  apply List.length_append

/-- What stands below the root is a module of the tree. -/
theorem lt_size_of_path_ne {tree : ModuleTree} {id : ModuleId} (h : tree.path id ≠ .root) :
  id.index < tree.size
  := by
  apply Nat.lt_of_not_le
  intro hout
  apply h
  rw [path, get?, List.getElem?_eq_none hout]
  rfl

/-- The modules of a tree keep their paths when another one is made. -/
theorem path_addChild {other : ModuleId} (h : other.index < tree.size) :
  (tree.addChild id name visibility inline).2.path other = tree.path other
  := by
  rw [addChild, path_pushItem, path, get?, List.getElem?_append_left h]
  rfl

/-- A module that is made stands below its parent. -/
theorem path_addChild_self :
  (tree.addChild id name visibility inline).2.path ⟨tree.size⟩ = (tree.path id).enter [name]
  := by
  rw [addChild, path_pushItem, path, get?, size, List.getElem?_concat_length]
  rfl

/-- A module that is made has no texts. -/
@[simp] theorem texts_addChild :
  (tree.addChild id name visibility inline).2.texts = tree.texts
  := by
  rw [addChild, texts_pushItem_child]
  funext other
  rw [texts, texts, get?, get?]
  rcases Nat.lt_trichotomy other.index tree.modules.length with h | h | h
  · rw [List.getElem?_append_left h]
  · rw [h, List.getElem?_concat_length, List.getElem?_eq_none (Nat.le_refl _)]
    rfl
  · rw [List.getElem?_eq_none (Nat.le_of_lt h), List.getElem?_eq_none]
    rw [List.length_append]
    apply h

end ModuleTree

end ServiceBindings
