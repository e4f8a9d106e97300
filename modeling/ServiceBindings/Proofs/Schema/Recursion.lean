import ServiceBindings.Proofs.Schema.Containment
import ServiceBindings.Proofs.Schema.Validation

/-!
# Recursive members

A member of a record or a union is recursive if a search from its type meets the record or union.
The search goes in rounds that each take a type from the queue.  A type puts what it contains in the
queue at most once, so the search ends in any graph, be there cycles or not.  The recursive members
come in the order of their first recursive occurrences.
-/

namespace ServiceBindings

/-! ### First occurrences -/

section FirstOccurrences

variable {α β : Type} {p q p' q' : α → Prop} {items : List α}

/-- `Leads p q items`: an item with the property `p` comes before all those with the property `q`. -/
def Leads (p q : α → Prop) : List α → Prop
  | [] => False
  | item :: items => ¬q item ∧ (p item ∨ Leads p q items)

theorem Leads.mono (h : Leads p q items) (hp : ∀ item ∈ items, p item → p' item)
    (hq : ∀ item ∈ items, q' item → q item) :
  Leads p' q' items
  := by
  induction items with
  | nil => cases h
  | cons item items ih =>
      obtain ⟨hnot, h⟩ := h
      rw [List.forall_mem_cons] at hp hq
      use fun hitem => hnot (hq.1 hitem)
      obtain hitem | hrest := h
      · apply Or.inl (hp.1 hitem)
      · apply Or.inr (ih hrest hp.2 hq.2)

theorem leads_map {f : β → α} {items : List β} :
  Leads p q (items.map f) ↔ Leads (fun item => p (f item)) (fun item => q (f item)) items
  := by
  induction items with
  | nil => rfl
  | cons item items ih => rw [List.map_cons, Leads, Leads, ih]

theorem leads_filter {kept : α → Bool} :
  Leads p q (items.filter kept)
    ↔ Leads (fun item => kept item = true ∧ p item) (fun item => kept item = true ∧ q item) items
  := by
  induction items with
  | nil => rfl
  | cons item items ih =>
      cases hkept : kept item with
      | true => simp [Leads, hkept, ih]
      | false => simp [Leads, hkept, ih]

/-- The item that comes first has a position before those of the others. -/
theorem Leads.exists_position (h : Leads p q items) :
  ∃ (i : Nat) (item : α), items[i]? = some item ∧ p item
    ∧ ∀ (j : Nat) (other : α), items[j]? = some other → q other → i < j
  := by
  induction items with
  | nil => cases h
  | cons item items ih =>
      obtain ⟨hnot, hitem | hrest⟩ := h
      · use 0, item, rfl, hitem
        rintro (_ | j) other hother hq
        · cases hother
          apply absurd hq hnot
        · apply Nat.succ_pos
      · obtain ⟨i, found, hfound, hp, hlater⟩ := ih hrest
        use i + 1, found, hfound, hp
        rintro (_ | j) other hother hq
        · cases hother
          apply absurd hq hnot
        · apply Nat.succ_lt_succ (hlater j other hother hq)

/-- The items of a list, each once, come in the order of their first occurrences. -/
theorem pairwise_eraseDups [BEq α] [LawfulBEq α] (items : List α) :
  items.eraseDups.Pairwise fun first second => Leads (· = first) (· = second) items
  := by
  match items with
  | [] => apply List.Pairwise.nil
  | item :: items =>
      rw [List.eraseDups_cons, List.pairwise_cons]
      have hne : ∀ other ∈ (items.filter fun b => !b == item).eraseDups, other ≠ item := by
        simp
      constructor
      · intro other hother
        use (hne other hother).symm, Or.inl rfl
      · apply (pairwise_eraseDups (items.filter fun b => !b == item)).imp_of_mem
        intro first second _ hsecond h
        use (hne second hsecond).symm
        right
        apply (leads_filter.mp h).mono
        · rintro other - ⟨-, hother⟩
          apply hother
        · rintro other - rfl
          use by simpa using hne other hsecond
  termination_by items.length
  decreasing_by apply Nat.lt_succ_of_le (List.length_filter_le _ _)

end FirstOccurrences

namespace TypeGraph

open Relation

variable {graph : TypeGraph} {target : TypeId}

/-! ### Structural steps -/

/-- One step of containment, from a record to the type of a field, from a union to the payload of a
variant, from an array to its elements or from a map to its values. -/
inductive StructuralStep (graph : TypeGraph) (id : TypeId) : TypeId → Prop where
  | field {record : RecordType} {field : Field} :
      graph.kind? id = some (.record record) → field ∈ record.fields →
      StructuralStep graph id field.type
  | variant {union : UnionType} {variant : UnionVariant} :
      graph.kind? id = some (.union union) → variant ∈ union.variants →
      StructuralStep graph id variant.type
  | element {element : TypeId} :
      graph.kind? id = some (.array element) → StructuralStep graph id element
  | value {value : TypeId} :
      graph.kind? id = some (.map value) → StructuralStep graph id value

theorem contains_iff {id part : TypeId} :
  graph.Contains id part ↔ ∃ kind, graph.kind? id = some kind ∧ part ∈ kind.parts
  := by
  rw [Contains, parts]
  cases graph.kind? id with
  | none => simp
  | some kind => simp

/-- The types that a type contains are those that are a structural step away. -/
theorem contains_eq_structuralStep (graph : TypeGraph) :
  graph.Contains = graph.StructuralStep
  := by
  funext id part
  apply propext
  rw [contains_iff]
  constructor
  · rintro ⟨kind, hkind, hpart⟩
    cases kind with
    | record record =>
        obtain ⟨field, hfield, rfl⟩ := List.mem_map.mp hpart
        apply StructuralStep.field hkind hfield
    | union union =>
        obtain ⟨variant, hvariant, rfl⟩ := List.mem_map.mp hpart
        apply StructuralStep.variant hkind hvariant
    | array element =>
        obtain rfl := List.mem_singleton.mp hpart
        apply StructuralStep.element hkind
    | map value =>
        obtain rfl := List.mem_singleton.mp hpart
        apply StructuralStep.value hkind
    | scalar | enum | interface | literal | intrinsic => cases hpart
  · rintro (⟨hkind, hmember⟩ | ⟨hkind, hmember⟩ | hkind | hkind)
    · exact ⟨_, hkind, List.mem_map_of_mem hmember⟩
    · exact ⟨_, hkind, List.mem_map_of_mem hmember⟩
    · exact ⟨_, hkind, List.mem_singleton_self _⟩
    · exact ⟨_, hkind, List.mem_singleton_self _⟩

/-! ### Rounds of the search -/

/-- The queue of a search, and the types that it has not seen. -/
abbrev SearchState := List TypeId × List TypeId

/-- One round of the search: it takes a type other than the one that is looked for from the queue,
and puts what that type contains in the queue unless it was seen before. -/
inductive Round (graph : TypeGraph) (target : TypeId) : SearchState → SearchState → Prop where
  | visit {id : TypeId} {queue unseen : List TypeId} : id ≠ target → id ∈ unseen →
      Round graph target (id :: queue, unseen) (queue ++ graph.parts id, unseen.erase id)
  | skip {id : TypeId} {queue unseen : List TypeId} : id ≠ target → id ∉ unseen →
      Round graph target (id :: queue, unseen) (queue, unseen)

/-- `Rounds graph target count state last`: a number of rounds lead from a state to another. -/
inductive Rounds (graph : TypeGraph) (target : TypeId) :
    Nat → SearchState → SearchState → Prop where
  | refl (state : SearchState) : Rounds graph target 0 state state
  | head {count : Nat} {state next last : SearchState} :
      Round graph target state next → Rounds graph target count next last →
      Rounds graph target (count + 1) state last

/-- The types in the queue and those that unseen types contain: what is still to be taken from the
queue, at most. -/
def ahead (graph : TypeGraph) (state : SearchState) : List TypeId :=
  state.1 ++ state.2.flatMap graph.parts

/-- Each round uses up one of the types ahead. -/
theorem Round.length_ahead {state next : SearchState} (h : Round graph target state next) :
  (graph.ahead state).length = (graph.ahead next).length + 1
  := by
  cases h with
  | @visit id queue unseen _ hunseen =>
      -- What the type contains moves from the unseen types to the queue.
      have hperm := (List.perm_cons_erase hunseen).flatMap_right graph.parts
      have hlength := hperm.length_eq
      rw [List.flatMap_cons, List.length_append] at hlength
      simp only [ahead, List.length_append, List.length_cons]
      omega
  | skip => simp only [ahead, List.length_append, List.length_cons]; omega

theorem Rounds.length_ahead {count : Nat} {state last : SearchState}
    (h : Rounds graph target count state last) :
  (graph.ahead state).length = (graph.ahead last).length + count
  := by
  induction h with
  | refl => rfl
  | head hround _ ih =>
      rw [hround.length_ahead, ih]
      omega

/-- The rounds of a search end with its answer. -/
theorem exists_rounds (graph : TypeGraph) (target : TypeId) (queue unseen : List TypeId) :
  ∃ count last, Rounds graph target count (queue, unseen) last
    ∧ (graph.search target queue unseen = true ∧ last.1.head? = some target
      ∨ graph.search target queue unseen = false ∧ last.1 = [])
  := by
  fun_induction search graph target queue unseen with
  | case1 unseen =>
      use 0, ([], unseen), Rounds.refl _
      right
      constructor <;> rfl
  | case2 unseen queue =>
      use 0, (target :: queue, unseen), Rounds.refl _
      left
      constructor <;> rfl
  | case3 unseen id queue hne hunseen ih =>
      obtain ⟨count, last, hrounds, hlast⟩ := ih
      use count + 1, last, Rounds.head (Round.visit hne hunseen) hrounds
  | case4 unseen id queue hne hunseen ih =>
      obtain ⟨count, last, hrounds, hlast⟩ := ih
      use count + 1, last, Rounds.head (Round.skip hne hunseen) hrounds

/-- Whether a search ends: it has at most one round more than there are types contained in types of
the graph, and its rounds lead to a queue that starts with the type that is looked for or is empty,
as `reaches` answers. -/
def SearchEnds (graph : TypeGraph) (start target : TypeId) : Prop :=
  (∀ count state, Rounds graph target count ([start], graph.typeIds) state →
    count ≤ (graph.typeIds.flatMap graph.parts).length + 1)
  ∧ ∃ count state, Rounds graph target count ([start], graph.typeIds) state
    ∧ (graph.reaches start target = true ∧ state.1.head? = some target
      ∨ graph.reaches start target = false ∧ state.1 = [])

theorem searchEnds (graph : TypeGraph) (start target : TypeId) :
  graph.SearchEnds start target
  := by
  constructor
  · intro count state hrounds
    have hahead : (graph.ahead ([start], graph.typeIds)).length
        = (graph.typeIds.flatMap graph.parts).length + 1 := rfl
    have hlength := hrounds.length_ahead
    omega
  · apply exists_rounds

/-! ### Lookups -/

theorem parts_subset_references (kind : TypeKind) : kind.parts ⊆ kind.references := by
  cases kind with
  | record record =>
      intro id hid
      obtain ⟨field, hfield, rfl⟩ := List.mem_map.mp hid
      apply List.mem_flatMap.mpr ⟨field, hfield, List.mem_cons_self⟩
  | union | array | map => apply List.Subset.refl
  | scalar | enum | interface | literal | intrinsic => apply List.nil_subset

/-- What a type of a linked graph contains exists. -/
theorem Contains.lt_of_link {source : TypeGraph} {id part : TypeId} (h : graph.Contains id part)
    (hlink : source.link = (graph, none)) :
  part.index < graph.types.length
  := by
  have hshape := sameShape_link hlink
  obtain ⟨-, -, hexist, -⟩ := exists_link_iff.mp ⟨graph, hlink⟩
  rw [hshape.types]
  apply hexist
  rw [← hshape.references]
  obtain ⟨kind, hkind, hpart⟩ := contains_iff.mp h
  obtain ⟨node, hnode, rfl⟩ := Option.map_eq_some_iff.mp hkind
  apply List.mem_append_right
  apply List.mem_flatMap.mpr ⟨node, List.mem_of_getElem? hnode, parts_subset_references _ hpart⟩

/-- Whatever the search of a linked graph takes from the queue exists. -/
theorem Rounds.exists_of_link {source : TypeGraph} {count : Nat} {state last : SearchState}
    (h : Rounds graph target count state last) (hlink : source.link = (graph, none))
    (hstate : ∀ id ∈ state.1, id.index < graph.types.length) :
  ∀ id ∈ last.1, id.index < graph.types.length
  := by
  induction h with
  | refl => apply hstate
  | head hround _ ih =>
      apply ih
      cases hround with
      | visit _ _ =>
          rw [List.forall_mem_cons] at hstate
          rw [List.forall_mem_append]
          use hstate.2
          intro part hpart
          apply Contains.lt_of_link hpart hlink
      | skip _ _ => apply (List.forall_mem_cons.mp hstate).2

/-! ### The order of recursive members -/

/-- `MemberAt graph id position member type`: the field or variant of the record or union `id` at a
position is the member, and has the type. -/
inductive MemberAt (graph : TypeGraph) (id : TypeId) : Nat → Member → TypeId → Prop where
  | field {record : RecordType} {position : Nat} {field : Field} :
      graph.kind? id = some (.record record) → record.fields[position]? = some field →
      MemberAt graph id position (.field field.name) field.type
  | variant {union : UnionType} {position : Nat} {variant : UnionVariant} :
      graph.kind? id = some (.union union) → union.variants[position]? = some variant →
      MemberAt graph id position (.variant position) variant.type

/-- `graph.LeadsBack id member position`: the type of the member at a position leads back to the
record or union `id` by any number of structural steps. -/
def LeadsBack (graph : TypeGraph) (id : TypeId) (member : Member) (position : Nat) : Prop :=
  ∃ type, graph.MemberAt id position member type ∧ ReflTransGen graph.StructuralStep type id

/-- Whether a member leads back at a position before all those at which another one does. -/
def Precedes (graph : TypeGraph) (id : TypeId) (first second : Member) : Prop :=
  ∃ position, graph.LeadsBack id first position
    ∧ ∀ other, graph.LeadsBack id second other → position < other

theorem hasMember_iff {id type : TypeId} {member : Member} :
  graph.HasMember id member type ↔ ∃ position, graph.MemberAt id position member type
  := by
  constructor
  · rintro (⟨hkind, hfield⟩ | ⟨hkind, hvariant⟩)
    · obtain ⟨position, hposition⟩ := List.getElem?_of_mem hfield
      use position, MemberAt.field hkind hposition
    · exact ⟨_, MemberAt.variant hkind hvariant⟩
  · rintro ⟨position, ⟨hkind, hfield⟩ | ⟨hkind, hvariant⟩⟩
    · apply HasMember.field hkind (List.mem_of_getElem? hfield)
    · apply HasMember.variant hkind hvariant

/-- A member is recursive exactly if it leads back at some position. -/
theorem recursive_iff_leadsBack (id : TypeId) (member : Member) :
  graph.Recursive id member ↔ ∃ position, graph.LeadsBack id member position
  := by
  simp only [recursive_iff, hasMember_iff, LeadsBack, contains_eq_structuralStep]
  constructor
  · rintro ⟨type, ⟨position, hmember⟩, hreach⟩
    use position, type
  · rintro ⟨position, type, hmember, hreach⟩
    use type, ⟨position, hmember⟩

/-- The recursive fields come in the order of their first recursive occurrences. -/
theorem pairwise_recursiveFields (graph : TypeGraph) (id : TypeId) :
  (graph.recursiveFields id).Pairwise fun first second =>
    graph.Precedes id (.field first) (.field second)
  := by
  unfold recursiveFields
  split
  case h_1 record hkind =>
    apply (pairwise_eraseDups _).imp
    intro first second hleads
    obtain ⟨position, field, hfield, ⟨hreaches, rfl⟩, hlater⟩ :=
      (leads_filter.mp (leads_map.mp hleads)).exists_position
    rw [reaches_iff, contains_eq_structuralStep] at hreaches
    use position, ⟨field.type, MemberAt.field hkind hfield, hreaches⟩
    rintro other ⟨type, hmember, hreach⟩
    rw [← contains_eq_structuralStep, ← reaches_iff] at hreach
    generalize hsecond : Member.field second = member at hmember
    cases hmember with
    | field hkind' hother =>
        cases hkind.symm.trans hkind'
        cases hsecond
        apply hlater other _ hother ⟨hreach, rfl⟩
    | variant => cases hsecond
  case h_2 => apply List.Pairwise.nil

/-- The position of a variant is its own. -/
theorem LeadsBack.eq_of_variant {id : TypeId} {index position : Nat}
    (h : graph.LeadsBack id (.variant index) position) :
  position = index
  := by
  obtain ⟨type, hmember, -⟩ := h
  cases hmember
  rfl

/-- The recursive variants come by increasing position. -/
theorem pairwise_recursiveVariants (graph : TypeGraph) (id : TypeId) :
  (graph.recursiveVariants id).Pairwise fun first second =>
    graph.Precedes id (.variant first) (.variant second)
  := by
  have hincreasing : (graph.recursiveVariants id).Pairwise (· < ·) := by
    unfold recursiveVariants
    split
    case h_1 union hkind =>
      have hpositions : (union.variants.zipIdx.map (·.2)).Pairwise (· < ·) := by
        rw [List.zipIdx_map_snd, ← List.range_eq_range']
        apply List.pairwise_lt_range
      apply hpositions.sublist (List.filter_sublist.map _)
    case h_2 => apply List.Pairwise.nil
  apply hincreasing.imp_of_mem
  intro first second hfirst _ hlt
  obtain ⟨position, hposition⟩ := (recursive_iff_leadsBack id (.variant first)).mp hfirst
  use position, hposition
  intro other hother
  rw [hposition.eq_of_variant, hother.eq_of_variant]
  apply hlt

/-- The analysis of recursion is exact.  The recursive fields of a record are the names that lead
back to it at some position, and the recursive variants of a union the positions that do.  They come
in the order of the first positions at which they lead back.  Each search ends in any graph, and in
a linked one it meets only types that exist. -/
theorem recursion_exact (graph : TypeGraph) (id : TypeId) :
  (∀ name, name ∈ graph.recursiveFields id
    ↔ ∃ position, graph.LeadsBack id (.field name) position)
  ∧ (∀ index, index ∈ graph.recursiveVariants id
    ↔ ∃ position, graph.LeadsBack id (.variant index) position)
  ∧ ((graph.recursiveFields id).Pairwise fun first second =>
    graph.Precedes id (.field first) (.field second))
  ∧ ((graph.recursiveVariants id).Pairwise fun first second =>
    graph.Precedes id (.variant first) (.variant second))
  ∧ (∀ start, graph.SearchEnds start id)
  ∧ ∀ source : TypeGraph, source.link = (graph, none) →
    ∀ member type count state, graph.HasMember id member type →
      Rounds graph id count ([type], graph.typeIds) state →
      ∀ other ∈ state.1, (graph.type? other).isSome
  := by
  refine ⟨?_, ?_, pairwise_recursiveFields graph id, pairwise_recursiveVariants graph id, ?_, ?_⟩
  · intro name
    apply recursive_iff_leadsBack id (.field name)
  · intro index
    apply recursive_iff_leadsBack id (.variant index)
  · intro start
    apply searchEnds
  · intro source hlink member type count state hmember hrounds other hother
    rw [type?, isSome_getElem?]
    apply hrounds.exists_of_link hlink _ other hother
    intro start hstart
    obtain rfl := List.mem_singleton.mp hstart
    apply hmember.contains.lt_of_link hlink

/-- The field of a pair that holds no pairs. -/
def otherField : Field := { name := "other", type := ⟨1⟩ }

/-- A record of pairs. -/
def pairRecord : RecordType :=
  { name := some "Pair"
    owner := some .global
    fields := [
      { name := "left", type := ⟨0⟩, optional := true },
      otherField,
      { name := "right", type := ⟨2⟩ }] }

/-- Pairs, a record that holds itself, and arrays of pairs. -/
def pairGraph : TypeGraph :=
  { namespaces := [{ name := "", declarations := [⟨0⟩, ⟨1⟩] }]
    types := [
      { kind := .record pairRecord },
      { kind := .record {
          name := some "Other"
          owner := some .global
          fields := [{ name := "next", type := ⟨1⟩ }] } },
      { kind := .array ⟨0⟩ }] }

/-- The search from the field that does not lead back to pairs ends, although what it holds leads
back to itself. -/
theorem recursion_exact_pair :
  pairGraph.link = (pairGraph, none) ∧ pairGraph.recursiveFields ⟨0⟩ = ["left", "right"]
    ∧ pairGraph.Precedes ⟨0⟩ (.field "left") (.field "right")
    ∧ (¬∃ position, pairGraph.LeadsBack ⟨0⟩ (.field "other") position)
    ∧ pairGraph.SearchEnds ⟨1⟩ ⟨0⟩
    ∧ ∀ count state, Rounds pairGraph ⟨0⟩ count ([⟨1⟩], pairGraph.typeIds) state →
      ∀ other ∈ state.1, (pairGraph.type? other).isSome
  := by
  obtain ⟨hfields, -, horder, -, hends, hfound⟩ := recursion_exact pairGraph ⟨0⟩
  have hlink : pairGraph.link = (pairGraph, none) := by decide +kernel
  have hrecursive : pairGraph.recursiveFields ⟨0⟩ = ["left", "right"] := by
    have hids : pairGraph.typeIds = [⟨0⟩, ⟨1⟩, ⟨2⟩] := rfl
    have hparts : pairGraph.parts ⟨1⟩ = [⟨1⟩] ∧ pairGraph.parts ⟨2⟩ = [⟨0⟩] := ⟨rfl, rfl⟩
    have hkind : pairGraph.kind? ⟨0⟩ = some (.record pairRecord) := rfl
    simp [recursiveFields, reaches, search, hids, hparts, hkind, pairRecord, otherField,
      List.eraseDups_cons]
  rw [hrecursive] at horder hfields
  refine ⟨hlink, hrecursive, ?_, ?_, hends ⟨1⟩, ?_⟩
  · apply (List.pairwise_cons.mp horder).1 "right" (List.mem_singleton_self _)
  · rw [← hfields]
    decide
  · intro count state hrounds
    have hfield : otherField ∈ pairRecord.fields := by decide
    apply hfound pairGraph hlink _ _ _ _ (HasMember.field rfl hfield) hrounds

end TypeGraph

end ServiceBindings
