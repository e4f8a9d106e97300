import Mathlib.Data.List.Nodup
import Mathlib.Logic.Relation
import Mathlib.Tactic.Use
import ServiceBindings.Schema.Containment

/-!
# What the search for a contained type finds

`Contains` is one step of structural containment, from a record to the type of a field, from a union
to the payload of a variant, from an array to its elements and from a map to its values.  The search
of `reaches` finds a type exactly if a chain of such steps leads to it, so a member of a record or a
union is recursive exactly if its type leads back to where it belongs, and the other members lie on
no cycle.
-/

namespace ServiceBindings

namespace TypeGraph

open Relation

variable {graph : TypeGraph} {target : TypeId}

/-- Whether values of a type are made of values of another one. -/
def Contains (graph : TypeGraph) (id part : TypeId) : Prop :=
  part ∈ graph.parts id

theorem mem_typeIds {id : TypeId} :
  id ∈ graph.typeIds ↔ id.index < graph.types.length
  := by
  simp only [typeIds, List.mem_map, List.mem_range]
  constructor
  · rintro ⟨index, hindex, rfl⟩
    apply hindex
  · intro hindex
    use id.index

theorem typeIds_nodup (graph : TypeGraph) :
  graph.typeIds.Nodup
  := by
  apply List.Nodup.map _ List.nodup_range
  intro first second h
  apply TypeId.mk.inj h

/-- A type that does not exist contains nothing. -/
theorem parts_of_not_mem {id : TypeId} (h : id ∉ graph.typeIds) :
  graph.parts id = []
  := by
  have hnone : graph.type? id = none := List.getElem?_eq_none (Nat.not_lt.mp (mem_typeIds.not.mp h))
  rw [parts, kind?, hnone]
  rfl

/-! ### The search -/

/-- What the search finds is contained in a type of the queue. -/
theorem exists_contains_of_search {queue unseen : List TypeId}
    (h : graph.search target queue unseen = true) :
  ∃ id ∈ queue, ReflTransGen graph.Contains id target
  := by
  fun_induction search graph target queue unseen with
  | case1 => cases h
  | case2 unseen queue =>
      use target, List.mem_cons_self
  | case3 unseen id queue hne hunseen ih =>
      obtain ⟨next, hnext, hreach⟩ := ih h
      obtain hnext | hnext := List.mem_append.mp hnext
      · use next, List.mem_cons_of_mem _ hnext
      · use id, List.mem_cons_self
        apply ReflTransGen.head hnext hreach
  | case4 unseen id queue hne hunseen ih =>
      obtain ⟨next, hnext, hreach⟩ := ih h
      use next, List.mem_cons_of_mem _ hnext

/-- `Met target queue unseen id`: a type waits in the queue, or it was seen and is not the one that
is looked for. -/
def Met (target : TypeId) (queue unseen : List TypeId) (id : TypeId) : Prop :=
  id ∈ queue ∨ id ∉ unseen ∧ id ≠ target

/-- A search that finds nothing has not met a type that contains what is looked for, if whatever is
contained in the types seen before has been met. -/
theorem not_contains_of_search {queue unseen : List TypeId} (hunseen : unseen.Nodup)
    (hseen : ∀ id, id ∉ unseen → id ≠ target → ∀ part, graph.Contains id part →
      Met target queue unseen part)
    (h : graph.search target queue unseen = false) {id : TypeId} (hid : Met target queue unseen id) :
  ¬ReflTransGen graph.Contains id target
  := by
  fun_induction search graph target queue unseen generalizing id with
  | case1 unseen =>
      -- With an empty queue the types seen so far are closed under containment.
      intro hreach
      induction hreach using ReflTransGen.head_induction_on with
      | refl =>
          obtain hid | hid := hid
          · cases hid
          · apply hid.2 rfl
      | head hstep _ ih =>
          obtain hid | hid := hid
          · cases hid
          · apply ih (hseen _ hid.1 hid.2 _ hstep)
  | case2 unseen queue => cases h
  | case3 unseen first queue hne hfirst ih =>
      have hmet : ∀ id, Met target (first :: queue) unseen id →
          Met target (queue ++ graph.parts first) (unseen.erase first) id := by
        rintro id (hid | ⟨hnot, htarget⟩)
        · obtain rfl | hid := List.mem_cons.mp hid
          · right
            use hunseen.not_mem_erase
          · left
            apply List.mem_append_left _ hid
        · right
          use fun herase => hnot (List.mem_of_mem_erase herase)
      apply ih (hunseen.erase first) _ h (hmet id hid)
      intro id hnot htarget part hpart
      by_cases hid : id = first
      · left
        rw [hid] at hpart
        apply List.mem_append_right _ hpart
      · apply hmet
        apply hseen id _ htarget part hpart
        intro hmem
        apply hnot (hunseen.mem_erase_iff.mpr ⟨hid, hmem⟩)
  | case4 unseen first queue hne hfirst ih =>
      have hmet : ∀ id, Met target (first :: queue) unseen id → Met target queue unseen id := by
        rintro id (hid | hid)
        · obtain rfl | hid := List.mem_cons.mp hid
          · right
            use hfirst
          · left
            apply hid
        · right
          apply hid
      apply ih hunseen _ h (hmet id hid)
      intro id hnot htarget part hpart
      apply hmet part (hseen id hnot htarget part hpart)

/-- The search finds a type exactly if containment leads to it. -/
theorem reaches_iff {start : TypeId} :
  graph.reaches start target = true ↔ ReflTransGen graph.Contains start target
  := by
  constructor
  · intro h
    obtain ⟨id, hid, hreach⟩ := exists_contains_of_search h
    obtain rfl := List.mem_singleton.mp hid
    apply hreach
  · intro hreach
    by_contra h
    rw [Bool.not_eq_true] at h
    apply not_contains_of_search graph.typeIds_nodup _ h (Or.inl (List.mem_singleton_self start))
      hreach
    intro id hid _ part hpart
    rw [Contains, parts_of_not_mem hid] at hpart
    cases hpart

/-! ### Members -/

/-- A field of a record, by its name, or a variant of a union, by its position. -/
inductive Member where
  | field (name : String)
  | variant (index : Nat)
  deriving DecidableEq, Repr

/-- `HasMember graph id member type`: the record or union `id` has a member of the type. -/
inductive HasMember (graph : TypeGraph) (id : TypeId) : Member → TypeId → Prop where
  | field {record : RecordType} {field : Field} :
      graph.kind? id = some (.record record) → field ∈ record.fields →
      HasMember graph id (.field field.name) field.type
  | variant {union : UnionType} {index : Nat} {variant : UnionVariant} :
      graph.kind? id = some (.union union) → union.variants[index]? = some variant →
      HasMember graph id (.variant index) variant.type

/-- Whether the analysis calls a member of a record or a union recursive. -/
def Recursive (graph : TypeGraph) (id : TypeId) : Member → Prop
  | .field name => name ∈ graph.recursiveFields id
  | .variant index => index ∈ graph.recursiveVariants id

theorem HasMember.contains {id type : TypeId} {member : Member}
    (h : HasMember graph id member type) :
  graph.Contains id type
  := by
  cases h with
  | field hkind hfield =>
      rw [Contains, parts, hkind]
      apply List.mem_map_of_mem hfield
  | variant hkind hvariant =>
      rw [Contains, parts, hkind]
      apply List.mem_map_of_mem (List.mem_of_getElem? hvariant)

theorem mem_recursiveFields {id : TypeId} {name : String} :
  name ∈ graph.recursiveFields id
    ↔ ∃ type, HasMember graph id (.field name) type ∧ ReflTransGen graph.Contains type id
  := by
  constructor
  · intro h
    unfold recursiveFields at h
    split at h
    case h_1 record hkind =>
      obtain ⟨field, hfield, rfl⟩ := List.mem_map.mp (List.mem_eraseDups.mp h)
      obtain ⟨hfield, hreaches⟩ := List.mem_filter.mp hfield
      use field.type, HasMember.field hkind hfield, reaches_iff.mp hreaches
    case h_2 => cases h
  · rintro ⟨type, hmember, hreach⟩
    cases hmember with
    | field hkind hfield =>
        simp only [recursiveFields, hkind]
        apply List.mem_eraseDups.mpr (List.mem_map_of_mem _)
        apply List.mem_filter.mpr ⟨hfield, reaches_iff.mpr hreach⟩

theorem mem_recursiveVariants {id : TypeId} {index : Nat} :
  index ∈ graph.recursiveVariants id
    ↔ ∃ type, HasMember graph id (.variant index) type ∧ ReflTransGen graph.Contains type id
  := by
  constructor
  · intro h
    unfold recursiveVariants at h
    split at h
    case h_1 union hkind =>
      obtain ⟨⟨variant, position⟩, hvariant, rfl⟩ := List.mem_map.mp h
      obtain ⟨hvariant, hreaches⟩ := List.mem_filter.mp hvariant
      use variant.type, HasMember.variant hkind (List.mem_zipIdx_iff_getElem?.mp hvariant),
        reaches_iff.mp hreaches
    case h_2 => cases h
  · rintro ⟨type, hmember, hreach⟩
    cases hmember with
    | @variant union _ variant hkind hvariant =>
        simp only [recursiveVariants, hkind]
        apply List.mem_map.mpr
        use (variant, index)
        constructor
        · apply List.mem_filter.mpr ⟨List.mem_zipIdx_iff_getElem?.mpr hvariant, reaches_iff.mpr hreach⟩
        · rfl

/-- A member is recursive exactly if a member of that name or position has a type that leads back to
where it belongs. -/
theorem recursive_iff {id : TypeId} {member : Member} :
  graph.Recursive id member
    ↔ ∃ type, HasMember graph id member type ∧ ReflTransGen graph.Contains type id
  := by
  cases member with
  | field name => apply mem_recursiveFields
  | variant index => apply mem_recursiveVariants

/-! ### Cycles -/

/-- Whether a type is an array or a map of another one. -/
def Wraps (graph : TypeGraph) (id inner : TypeId) : Prop :=
  graph.kind? id = some (.array inner) ∨ graph.kind? id = some (.map inner)

/-- Whether a type is a record or a union. -/
def IsComposite (graph : TypeGraph) (id : TypeId) : Prop :=
  (∃ record, graph.kind? id = some (.record record)) ∨ ∃ union, graph.kind? id = some (.union union)

/-- `graph.HoldsInline id other`: a member of the record or union `id` that is not recursive holds
values of the record or union `other`, by themselves or inside of arrays and maps. -/
def HoldsInline (graph : TypeGraph) (id other : TypeId) : Prop :=
  ∃ member type, HasMember graph id member type ∧ ¬graph.Recursive id member
    ∧ ReflTransGen graph.Wraps type other ∧ graph.IsComposite other

theorem Wraps.contains {id inner : TypeId} (h : graph.Wraps id inner) :
  graph.Contains id inner
  := by
  obtain h | h := h
  · rw [Contains, parts, h]
    apply List.mem_singleton_self
  · rw [Contains, parts, h]
    apply List.mem_singleton_self

theorem contains_of_wraps {id inner : TypeId} (h : ReflTransGen graph.Wraps id inner) :
  ReflTransGen graph.Contains id inner :=
  ReflTransGen.mono (fun _ _ => Wraps.contains) _ _ h

theorem HoldsInline.contains {id other : TypeId} (h : graph.HoldsInline id other) :
  ReflTransGen graph.Contains id other
  := by
  obtain ⟨member, type, hmember, -, hwraps, -⟩ := h
  apply ReflTransGen.head hmember.contains (contains_of_wraps hwraps)

/-- Members that are not recursive never lead back to where they belong. -/
theorem holdsInline_acyclic (graph : TypeGraph) (id : TypeId) :
  ¬TransGen graph.HoldsInline id id
  := by
  intro hcycle
  obtain ⟨other, ⟨member, type, hmember, hrecursive, hwraps, -⟩, hrest⟩ :=
    TransGen.head'_iff.mp hcycle
  have hback : ReflTransGen graph.Contains other id :=
    reflTransGen_closed (fun _ _ => HoldsInline.contains) _ _ hrest
  apply hrecursive
  apply recursive_iff.mpr ⟨type, hmember, (contains_of_wraps hwraps).trans hback⟩

end TypeGraph

end ServiceBindings
