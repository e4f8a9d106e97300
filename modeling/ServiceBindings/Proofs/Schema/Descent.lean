import ServiceBindings.Draft.Place
import ServiceBindings.Proofs.Chain
import ServiceBindings.Proofs.Schema.Linking

/-!
# Namespaces below a namespace

The namespaces below a root are those from which parents lead to the root.  They are found by going
from the root to the children, no deeper than there are namespaces: the shortest way from a
namespace up to the root passes no namespace twice.
-/

namespace ServiceBindings

namespace TypeGraph

variable (graph : TypeGraph)

/-- Whether a namespace is the root or below it. -/
inductive Descends (root : NamespaceId) : NamespaceId → Prop where
  | root : Descends root root
  | child {id parent : NamespaceId} : graph.parent? id = some parent → Descends root parent →
      Descends root id

/-- The namespace that a number of steps to the parent leads to. -/
def ancestor? (id : NamespaceId) : Nat → Option NamespaceId
  | 0 => some id
  | steps + 1 => (ancestor? id steps).bind graph.parent?

variable {graph} {root id : NamespaceId}

/-! ### Steps to the parent -/

theorem ancestor?_eq_follow (id : NamespaceId) (steps : Nat) :
  graph.ancestor? id steps = Chain.follow graph.parent? id steps
  := by
  induction steps with
  | zero => rfl
  | succ steps ih => rw [ancestor?, Chain.follow, ih]

/-- Steps can be taken in two parts. -/
theorem ancestor?_add (id : NamespaceId) (first second : Nat) :
  graph.ancestor? id (first + second)
    = (graph.ancestor? id first).bind fun middle => graph.ancestor? middle second
  := by
  simp only [ancestor?_eq_follow, Chain.follow_add]

/-- A namespace is below the root if steps to the parent lead there. -/
theorem descends_iff_ancestor? :
  graph.Descends root id ↔ ∃ steps, graph.ancestor? id steps = some root
  := by
  constructor
  · intro h
    induction h with
    | root => exact ⟨0, rfl⟩
    | @child id parent hparent _ ih =>
        obtain ⟨steps, hsteps⟩ := ih
        use 1 + steps
        rw [ancestor?_add, ancestor?, ancestor?, Option.bind_some, hparent, Option.bind_some]
        apply hsteps
  · rintro ⟨steps, hsteps⟩
    induction steps generalizing id with
    | zero =>
        cases hsteps
        apply Descends.root
    | succ steps ih =>
        rw [Nat.add_comm, ancestor?_add] at hsteps
        obtain ⟨parent, hparent, hsteps⟩ := Option.bind_eq_some_iff.mp hsteps
        apply Descends.child hparent (ih hsteps)

/-- A namespace with a parent exists. -/
theorem mem_namespaceIds_of_parent? {parent : NamespaceId} (h : graph.parent? id = some parent) :
  id ∈ graph.namespaceIds
  := by
  obtain ⟨ns, hns, -⟩ := Option.bind_eq_some_iff.mp h
  apply List.mem_map.mpr ⟨id.index, List.mem_range.mpr (List.getElem?_eq_some_iff.mp hns).1, rfl⟩

/-- The root is first reached in fewer steps than there are namespaces, since all that are passed
are different from it and from each other. -/
theorem steps_lt_of_first (hroot : root.index < graph.namespaces.length) {steps : Nat}
    {found : NamespaceId} (h : Chain.First graph.parent? (· = root) id steps found) :
  steps < graph.namespaces.length
  := by
  have hmem : root ∈ graph.namespaceIds :=
    List.mem_map.mpr ⟨root.index, List.mem_range.mpr hroot, rfl⟩
  have hplaces : ∀ passed second, ¬passed = root → graph.parent? passed = some second →
      passed ∈ graph.namespaceIds.erase root := by
    intro passed second hne hparent
    apply (List.mem_erase_of_ne hne).mpr (mem_namespaceIds_of_parent? hparent)
  have hle := h.steps_le hplaces
  rw [List.length_erase_of_mem hmem, namespaceIds, List.length_map, List.length_range] at hle
  apply Nat.lt_of_le_pred (Nat.zero_lt_of_lt hroot) hle

/-- A namespace is below the root if at some time, and so for a first time, steps to the parent lead
there. -/
theorem descends_iff_first :
  graph.Descends root id ↔ ∃ steps, Chain.First graph.parent? (· = root) id steps root
  := by
  rw [descends_iff_ancestor?]
  constructor
  · rintro ⟨steps, hsteps⟩
    rw [ancestor?_eq_follow] at hsteps
    obtain ⟨fewest, found, hfirst⟩ := Chain.exists_first (P := (· = root)) hsteps rfl
    obtain rfl := hfirst.holds
    use fewest
  · rintro ⟨steps, hfirst⟩
    use steps
    rw [ancestor?_eq_follow, hfirst.reached]

/-- A namespace below the root is fewer steps below it than there are namespaces. -/
theorem Descends.exists_steps (h : graph.Descends root id)
    (hroot : root.index < graph.namespaces.length) :
  ∃ steps < graph.namespaces.length, graph.ancestor? id steps = some root
  := by
  obtain ⟨steps, hfirst⟩ := descends_iff_first.mp h
  use steps, steps_lt_of_first hroot hfirst
  rw [ancestor?_eq_follow, hfirst.reached]

/-! ### Going down -/

variable (hlinked : graph.Linked)

include hlinked

/-- The namespaces in a subtree: the root and those in the subtrees of its children. -/
theorem mem_subtreeWithin_succ {depth : Nat} :
  id ∈ graph.subtreeWithin (depth + 1) root
    ↔ id = root ∨ ∃ child, graph.parent? child = some root
      ∧ id ∈ graph.subtreeWithin depth child
  := by
  rw [subtreeWithin, List.mem_cons, List.mem_flatMap]
  apply or_congr_right
  apply exists_congr
  intro child
  rw [← hlinked.mem_children]
  rfl

theorem subtreeWithin_mono {depth deeper : Nat} (h : depth ≤ deeper)
    (hid : id ∈ graph.subtreeWithin depth root) :
  id ∈ graph.subtreeWithin deeper root
  := by
  induction depth generalizing root deeper with
  | zero => cases hid
  | succ depth ih =>
      obtain ⟨deeper, rfl⟩ : ∃ n, deeper = n + 1 := Nat.exists_eq_add_one.mpr (by omega)
      rw [mem_subtreeWithin_succ hlinked] at hid ⊢
      apply hid.imp_right
      rintro ⟨child, hchild, hid⟩
      use child, hchild
      apply ih (Nat.le_of_succ_le_succ h) hid

/-- What steps to the parent lead from is found at that depth. -/
theorem mem_subtreeWithin_of_ancestor? {steps : Nat} (h : graph.ancestor? id steps = some root) :
  id ∈ graph.subtreeWithin (steps + 1) root
  := by
  induction steps generalizing root with
  | zero =>
      cases h
      apply (mem_subtreeWithin_succ hlinked).mpr (Or.inl rfl)
  | succ steps ih =>
      obtain ⟨child, hchild, hroot⟩ := Option.bind_eq_some_iff.mp h
      apply (mem_subtreeWithin_succ hlinked).mpr (Or.inr ⟨child, hroot, ih hchild⟩)

theorem descends_of_mem_subtreeWithin {depth : Nat} (h : id ∈ graph.subtreeWithin depth root) :
  graph.Descends root id
  := by
  rw [descends_iff_ancestor?]
  induction depth generalizing root with
  | zero => cases h
  | succ depth ih =>
      rcases (mem_subtreeWithin_succ hlinked).mp h with rfl | ⟨child, hchild, hid⟩
      · exact ⟨0, rfl⟩
      · obtain ⟨steps, hsteps⟩ := ih hid
        use steps + 1
        rw [ancestor?, hsteps]
        apply hchild

/-- A parent exists. -/
theorem parent_lt {parent : NamespaceId} (h : graph.parent? id = some parent) :
  parent.index < graph.namespaces.length
  := by
  have hchild := (hlinked.mem_children parent id).mpr h
  rw [childrenOf, namespace?] at hchild
  by_contra hlt
  rw [List.getElem?_eq_none (Nat.le_of_not_lt hlt)] at hchild
  cases hchild

/-- What a namespace that exists is below exists. -/
theorem Descends.root_lt (h : graph.Descends root id) (hid : id.index < graph.namespaces.length) :
  root.index < graph.namespaces.length
  := by
  induction h with
  | root => apply hid
  | child hparent _ ih => apply ih (parent_lt hlinked hparent)

/-- Among the namespaces that exist, the subtree of a namespace has those below it. -/
theorem mem_subtree_iff (hid : id.index < graph.namespaces.length) :
  id ∈ graph.subtree root ↔ graph.Descends root id
  := by
  constructor
  · apply descends_of_mem_subtreeWithin hlinked
  · intro h
    obtain ⟨steps, hlt, hsteps⟩ := h.exists_steps (Descends.root_lt hlinked h hid)
    apply subtreeWithin_mono hlinked hlt (mem_subtreeWithin_of_ancestor? hlinked hsteps)

end TypeGraph

end ServiceBindings
