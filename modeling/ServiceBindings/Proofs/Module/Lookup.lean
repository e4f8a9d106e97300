import Mathlib.Data.List.Induction
import ServiceBindings.Proofs.Module.Nesting

/-!
# Modules by their paths

However a module tree was built, the path of a module is the list of the names on the way from the
crate root to it.  Looking a path up finds no module with another path, and it finds every module if
the modules in each one have different names.
-/

namespace ServiceBindings

namespace ModuleTree

/-- The name of a module. -/
def name (tree : ModuleTree) (id : ModuleId) : String :=
  ((tree.get? id).map (·.name)).getD ""

/-- Whether names are those on the way from the root to a module. -/
inductive Leads (tree : ModuleTree) : List String → ModuleId → Prop where
  | root : Leads tree [] .root
  | child {names : List String} {parent child : ModuleId} : Leads tree names parent →
      tree.Holds parent child → Leads tree (names ++ [tree.name child]) child

/-- Whether the children of each module have different names. -/
def DistinctChildren (tree : ModuleTree) : Prop :=
  ∀ parent ∈ tree.ids, ((tree.children parent).map tree.name).Nodup

instance (tree : ModuleTree) : Decidable tree.DistinctChildren :=
  inferInstanceAs (Decidable (∀ parent ∈ tree.ids, _))

/-- Whether the path of each child is that of its parent with its name at the end. -/
structure Addressed (tree : ModuleTree) : Prop where
  root : tree.path .root = .root
  child : ∀ parent child, tree.Holds parent child →
    tree.path child = (tree.path parent).enter [tree.name child]

variable {tree : ModuleTree}

/-! ### Paths of built trees -/

theorem name_modify (id : ModuleId) {f : Module → Module} (hf : ∀ m, (f m).name = m.name) :
  (tree.modify id f).name = tree.name
  := by
  funext other
  rw [name, map_get?_modify tree id hf other]
  rfl

@[simp] theorem name_pushItem (id : ModuleId) (item : ModuleItem) :
  (tree.pushItem id item).name = tree.name :=
  name_modify id fun _ => rfl

/-- The modules of a tree keep their names when another one is made. -/
theorem name_addChild {other : ModuleId} (h : other.index < tree.size) (parent : ModuleId)
    (called : String) (visibility : Visibility) (inline : Bool) :
  (tree.addChild parent called visibility inline).2.name other = tree.name other
  := by
  rw [addChild, name_pushItem, name, get?_append _ h]
  rfl

theorem name_addChild_self (parent : ModuleId) (called : String) (visibility : Visibility)
    (inline : Bool) :
  (tree.addChild parent called visibility inline).2.name ⟨tree.size⟩ = called
  := by
  rw [addChild, name_pushItem, name, get?, size, List.getElem?_concat_length]
  rfl

/-- A module that is made is a child of its parent, and nothing else changes about children. -/
theorem holds_addChild_iff {parent : ModuleId} (hparent : parent.index < tree.size)
    (called : String) (visibility : Visibility) (inline : Bool) {other child : ModuleId} :
  (tree.addChild parent called visibility inline).2.Holds other child
    ↔ tree.Holds other child ∨ other = parent ∧ child = ⟨tree.size⟩
  := by
  rw [Holds, children_addChild hparent]
  split
  case isTrue hother => simp [Holds, hother]
  case isFalse hother => simp [Holds, hother]

/-- A change of a module that keeps its path, its name and its children keeps the addresses. -/
theorem Addressed.modify (h : tree.Addressed) (id : ModuleId) {f : Module → Module}
    (hpath : ∀ m, (f m).path = m.path) (hname : ∀ m, (f m).name = m.name)
    (hchildren : ∀ m, (f m).children = m.children) :
  (tree.modify id f).Addressed
  := by
  constructor
  · rw [path_modify tree id hpath]
    apply h.root
  · intro parent child
    rw [Holds, children_modify id hchildren, path_modify tree id hpath, name_modify id hname]
    apply h.child

/-- A module that is made gets the path of its parent with its name at the end. -/
theorem Addressed.addChild (h : tree.Addressed) (hnested : tree.Nested) {parent : ModuleId}
    (hparent : parent.index < tree.size) (called : String) (visibility : Visibility)
    (inline : Bool) :
  (tree.addChild parent called visibility inline).2.Addressed
  := by
  constructor
  · have hroot : ModuleId.root.index < tree.size := hnested.root_lt
    rw [path_addChild tree parent called visibility inline hroot]
    apply h.root
  · intro other child hchild
    rcases (holds_addChild_iff hparent called visibility inline).mp hchild with
      hchild | ⟨rfl, rfl⟩
    · have hlt := hnested.child_lt hchild
      rw [path_addChild tree _ _ _ _ hlt, path_addChild tree _ _ _ _ hchild.index_lt,
        name_addChild hlt]
      apply h.child other child hchild
    · rw [path_addChild_self, path_addChild tree _ _ _ _ hparent, name_addChild_self]

theorem Built.addressed (h : tree.Built) : tree.Addressed := by
  induction h with
  | empty =>
      refine ⟨rfl, ?_⟩
      intro parent child hchild
      obtain ⟨index⟩ := parent
      cases index <;> cases hchild
  | addChild called visibility inline hbuilt hparent ih =>
      apply ih.addChild hbuilt.nested hparent
  | appendText id body _ ih =>
      apply ih.modify id
      · intro m
        rfl
      · intro m
        rfl
      · intro m
        simp [Module.children]
  | setDoc id doc _ ih => exact ih.modify id (fun _ => rfl) (fun _ => rfl) fun _ => rfl
  | setOrigin id origin _ ih => exact ih.modify id (fun _ => rfl) (fun _ => rfl) fun _ => rfl

/-- A way leads to modules that exist. -/
theorem Leads.index_lt (h : tree.Nested) {names : List String} {m : ModuleId}
    (hleads : tree.Leads names m) :
  m.index < tree.size
  := by
  cases hleads with
  | root => apply h.root_lt
  | child _ hchild => apply h.child_lt hchild

/-- The path of a module has the names on any way that leads to it. -/
theorem Leads.parts_path (h : tree.Addressed) {names : List String} {m : ModuleId}
    (hleads : tree.Leads names m) :
  (tree.path m).parts = names
  := by
  induction hleads with
  | root =>
      rw [h.root]
      rfl
  | @child names parent child _ hchild ih =>
      rw [h.child parent child hchild, ModulePath.enter, ih]

/-- A way leads to every module. -/
theorem leads_path (h : tree.Addressed) (hnested : tree.Nested) {m : ModuleId}
    (hm : m.index < tree.size) :
  tree.Leads (tree.path m).parts m
  := by
  obtain ⟨index⟩ := m
  -- The parent of a module was made before it.
  induction index using Nat.strongRecOn with
  | ind index ih =>
      by_cases hroot : (⟨index⟩ : ModuleId) = .root
      · rw [hroot, h.root]
        apply Leads.root
      · obtain ⟨⟨outer⟩, hchild⟩ := hnested.exists_parent hm hroot
        rw [h.child _ _ hchild]
        apply Leads.child _ hchild
        apply ih outer (hnested.child_gt _ _ hchild) hchild.index_lt

/-! ### Looking up -/

/-- The last step of looking names up. -/
theorem findFrom?_concat (id : ModuleId) (names : List String) (last : String) :
  tree.findFrom? id (names ++ [last])
    = (tree.findFrom? id names).bind fun parent => tree.findChild? parent last
  := by
  induction names generalizing id with
  | nil =>
      cases h : tree.findChild? id last <;> simp [findFrom?, h]
  | cons first names ih =>
      rw [List.cons_append, findFrom?, findFrom?, Option.bind_assoc]
      congr 1
      funext child
      apply ih

theorem hasName_iff {id : ModuleId} (h : id.index < tree.size) (called : String) :
  tree.hasName id called = true ↔ tree.name id = called
  := by
  have hget : tree.get? id = some tree.modules[id.index] := List.getElem?_eq_getElem h
  simp [hasName, name, hget]

/-- A child that is found has the name. -/
theorem findChild?_eq_some (hnested : tree.Nested) {parent child : ModuleId} {called : String}
    (h : tree.findChild? parent called = some child) :
  tree.Holds parent child ∧ tree.name child = called
  := by
  rw [findChild?] at h
  have hchild : tree.Holds parent child := List.mem_of_find?_eq_some h
  have hname := List.find?_some h
  use hchild
  apply (hasName_iff (hnested.child_lt hchild) called).mp hname

/-- A child is found by its name if no other child has it. -/
theorem findChild?_name (hnested : tree.Nested) (hdistinct : tree.DistinctChildren)
    {parent child : ModuleId} (hchild : tree.Holds parent child) :
  tree.findChild? parent (tree.name child) = some child
  := by
  have hsome : (tree.findChild? parent (tree.name child)).isSome := by
    rw [findChild?, List.find?_isSome]
    exact ⟨child, hchild, (hasName_iff (hnested.child_lt hchild) _).mpr rfl⟩
  obtain ⟨found, hfound⟩ := Option.isSome_iff_exists.mp hsome
  obtain ⟨hmem, hname⟩ := findChild?_eq_some hnested hfound
  have hnodup := hdistinct parent (mem_ids.mpr hchild.index_lt)
  rw [hfound, List.inj_on_of_nodup_map hnodup hmem hchild hname]

/-- Names that are looked up lead to the module that is found. -/
theorem leads_of_findFrom? (hnested : tree.Nested) {names : List String} {m : ModuleId}
    (h : tree.findFrom? .root names = some m) :
  tree.Leads names m
  := by
  induction names using List.reverseRecOn generalizing m with
  | nil =>
      cases h
      apply Leads.root
  | append_singleton names last ih =>
      rw [findFrom?_concat] at h
      obtain ⟨parent, hparent, hlast⟩ := Option.bind_eq_some_iff.mp h
      obtain ⟨hchild, rfl⟩ := findChild?_eq_some hnested hlast
      apply Leads.child (ih hparent) hchild

/-- A module that names lead to is found by them if siblings have different names. -/
theorem Leads.findFrom? (hnested : tree.Nested) (hdistinct : tree.DistinctChildren)
    {names : List String} {m : ModuleId} (h : tree.Leads names m) :
  tree.findFrom? .root names = some m
  := by
  induction h with
  | root => rfl
  | child _ hchild ih =>
      rw [findFrom?_concat, ih, Option.bind_some, findChild?_name hnested hdistinct hchild]

/-! ### Children -/

/-- The items of a module that are a child are as many as its children that are that one. -/
theorem count_items (id child : ModuleId) :
  (tree.items id).count (.child child) = (tree.children id).count child
  := by
  rw [children_eq_filterMap, List.count_filterMap, List.count]
  apply List.countP_congr
  intro item _
  cases item with
  | text body => simp [ModuleItem.child?]
  | child other => simp [ModuleItem.child?]

theorem Nested.children_nodup (h : tree.Nested) (id : ModuleId) : (tree.children id).Nodup := by
  by_cases hid : id.index < tree.size
  · have hnodup : (tree.ids.flatMap tree.children).Nodup :=
      h.children_perm.nodup_iff.mpr tree.ids_nodup.tail
    apply (List.nodup_flatMap.mp hnodup).1 id (mem_ids.mpr hid)
  · rw [children_eq_filterMap, items_eq_nil (Nat.not_lt.mp hid)]
    apply List.nodup_nil

/-- A module is an item of its parent once, and of no other module. -/
theorem Nested.count_items_parent (h : tree.Nested) {parent child : ModuleId}
    (hchild : tree.Holds parent child) (other : ModuleId) :
  (tree.items other).count (.child child) = if other = parent then 1 else 0
  := by
  rw [count_items]
  split
  case isTrue hother =>
    rw [hother]
    apply List.count_eq_one_of_mem (h.children_nodup parent) hchild
  case isFalse hother =>
    apply List.count_eq_zero_of_not_mem
    intro hmem
    apply hother (h.parent_unique hmem hchild)

/-- In a tree that is built, each module but the root is an item of one module that was made before
it, once, and of no other one.  The path of a module has the names on the way from the root to it.
A path is not found if no module has it, and the path of each module finds that module if the
children of each module have different names. -/
theorem built_lookup_exact (h : tree.Built) :
  (∀ m, m.index < tree.size → m ≠ .root → ∃ parent, parent.index < m.index
    ∧ ∀ other, (tree.items other).count (.child m) = if other = parent then 1 else 0)
  ∧ (∀ m, m.index < tree.size → ∀ names, tree.Leads names m ↔ names = (tree.path m).parts)
  ∧ (∀ path, (∀ m, m.index < tree.size → tree.path m ≠ path) → tree.find? path = none)
  ∧ (tree.DistinctChildren → ∀ m, m.index < tree.size → tree.find? (tree.path m) = some m)
  := by
  have hnested := h.nested
  have haddressed := h.addressed
  refine ⟨?_, ?_, ?_, ?_⟩
  · intro m hm hroot
    obtain ⟨parent, hchild⟩ := hnested.exists_parent hm hroot
    exact ⟨parent, hnested.child_gt parent m hchild, hnested.count_items_parent hchild⟩
  · intro m hm names
    constructor
    · intro hleads
      apply (hleads.parts_path haddressed).symm
    · rintro rfl
      apply leads_path haddressed hnested hm
  · intro path hpath
    rw [Option.eq_none_iff_forall_ne_some]
    intro m hfound
    have hleads := leads_of_findFrom? hnested hfound
    apply hpath m (hleads.index_lt hnested)
    apply congrArg ModulePath.mk (hleads.parts_path haddressed)
  · intro hdistinct m hm
    apply (leads_path haddressed hnested hm).findFrom? hnested hdistinct

/-- A tree with two modules of the same name, one in a module of its own. -/
def shedTree : ModuleTree :=
  let shed := (empty.addChild .root "shed" .everywhere false).2.appendText ⟨1⟩ "struct Spade;"
  let loft := (shed.addChild ⟨1⟩ "loft" .everywhere false).2.setDoc ⟨2⟩ (some "Dry.")
  (loft.addChild .root "loft" .hidden true).2

/-- The loft of the shed is found, and the shed has no other address. -/
theorem built_lookup_exact_shed :
  shedTree.Built ∧ shedTree.DistinctChildren
    ∧ (∃ parent, parent.index < 2
      ∧ ∀ other, (shedTree.items other).count (.child ⟨2⟩) = if other = parent then 1 else 0)
    ∧ shedTree.Leads ["shed", "loft"] ⟨2⟩
    ∧ shedTree.find? ⟨["shed", "loft"]⟩ = some ⟨2⟩ ∧ shedTree.find? ⟨["loft"]⟩ = some ⟨3⟩
    ∧ shedTree.find? ⟨["loft", "shed"]⟩ = none
  := by
  have hbuilt : shedTree.Built :=
    .addChild _ _ _ (.setDoc _ _ (.addChild _ _ _ (.appendText _ _ (.addChild _ _ _ .empty
      (by decide))) (by decide))) (by decide)
  have hdistinct : shedTree.DistinctChildren := by decide
  have hother : ∀ m ∈ shedTree.ids, shedTree.path m ≠ ⟨["loft", "shed"]⟩ := by decide
  obtain ⟨hparent, hleads, hnone, hfound⟩ := built_lookup_exact hbuilt
  refine ⟨hbuilt, hdistinct, hparent ⟨2⟩ (by decide) (by decide), ?_, ?_, ?_, ?_⟩
  · apply (hleads ⟨2⟩ (by decide) _).mpr rfl
  · apply hfound hdistinct ⟨2⟩ (by decide)
  · apply hfound hdistinct ⟨3⟩ (by decide)
  · apply hnone _ fun m hm => hother m (mem_ids.mpr hm)

end ModuleTree

end ServiceBindings
