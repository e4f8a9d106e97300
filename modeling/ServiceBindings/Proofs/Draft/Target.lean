import ServiceBindings.Proofs.Draft.Mention

/-!
# Targets

What a draft can be asked to declare: a declaration, a type without a name, or a subset of a union.
Spelling a type asks for one target at most, and writing a target asks for those of the types that
it spells.  A set of targets that is closed under asking contains what its members mention, and what
is asked for is mentioned.
-/

namespace ServiceBindings

/-- What a draft can be asked to declare. -/
inductive Target where
  | declaration (declaration : DeclarationRef)
  /-- A type without a name. -/
  | anonymous (id : TypeId)
  /-- A subset of a union, by the name that was asked for. -/
  | subset (union : TypeId) (base : String)
  deriving DecidableEq, Repr

/-! ### Sides of a union -/

namespace UnionType

variable (graph : TypeGraph) (union : UnionType)

/-- A side has as many positions as there are variants on it. -/
theorem length_side (errors : Bool) :
  (union.side graph errors).length
    = union.variants.countP fun variant => graph.isErrorRecord variant.type == errors
  := by
  rw [side, List.length_map, ← List.countP_eq_length_filter]
  nth_rewrite 2 [← List.zipIdx_map_fst 0 union.variants]
  rw [List.countP_map]
  rfl

/-- The two sides share out all variants. -/
theorem length_side_add :
  (union.side graph true).length + (union.side graph false).length = union.variants.length
  := by
  have hnot : (fun variant : UnionVariant => graph.isErrorRecord variant.type == false)
      = fun variant => decide ¬(graph.isErrorRecord variant.type == true) = true := by
    funext variant
    cases graph.isErrorRecord variant.type <;> rfl
  rw [length_side, length_side, hnot]
  symm
  apply List.length_eq_countP_add_countP

/-- A side is the whole union exactly if all variants are on it. -/
theorem length_side_eq_iff (errors : Bool) :
  (union.side graph errors).length = union.variants.length
    ↔ ∀ variant ∈ union.variants, graph.isErrorRecord variant.type = errors
  := by
  rw [length_side, List.countP_eq_length]
  simp

end UnionType

namespace TypeGraph

variable (graph : TypeGraph)

/-- What spelling a type asks for. -/
inductive Spells : TypeId → Target → Prop where
  | named {id : TypeId} : graph.IsNamed id → Spells id (.declaration (.type id))
  | anonymous {id : TypeId} : graph.IsAnonymous id → Spells id (.anonymous id)
  | element {id part : TypeId} {target : Target} : graph.IsElement id part → Spells part target →
      Spells id target

/-- The type that a side of an operation is spelled as, if it is one. -/
def sideType? (operation : Operation) (errors : Bool) : Option TypeId :=
  match graph.kind? operation.returnType with
  | some (.union union) =>
    match union.side graph errors with
    | [] => none
    | [position] => (union.variants[position]?).map (·.type)
    | side => if side.length = union.variants.length then some operation.returnType else none
  | _ =>
    if graph.isErrorRecord operation.returnType = errors then some operation.returnType else none

/-- Whether a side of an operation is a subset that needs a name. -/
def NeedsSubset (operation : Operation) (errors : Bool) : Prop :=
  ∃ union, graph.kind? operation.returnType = some (.union union)
    ∧ 2 ≤ (union.side graph errors).length
    ∧ (union.side graph errors).length ≠ union.variants.length

/-- What the method of an operation asks for. -/
inductive OperationAsks (operation : Operation) : Target → Prop where
  | subset {errors : Bool} : graph.NeedsSubset operation errors →
      OperationAsks operation (.subset operation.returnType (operation.sideName graph errors))
  | side {errors : Bool} {id : TypeId} {target : Target} :
      graph.sideType? operation errors = some id → graph.Spells id target →
      OperationAsks operation target
  | parameter {parameter : Field} {target : Target} : parameter ∈ operation.parameters →
      graph.isValue parameter.type = false → graph.Spells parameter.type target →
      OperationAsks operation target

/-- The types of the variants in a subset of a union that carry information. -/
inductive IsSubsetMember (id : TypeId) (base : String) : TypeId → Prop where
  | variant {variants : List Nat} {union : UnionType} {position : Nat} {variant : UnionVariant} :
      graph.ReturnsSubset id variants base → graph.kind? id = some (.union union) →
      position ∈ variants → union.variants[position]? = some variant →
      graph.isValue variant.type = false → IsSubsetMember id base variant.type

/-- What writing a target asks for. -/
inductive Asks : Target → Target → Prop where
  | member {id part : TypeId} {target : Target} : graph.IsMember id part →
      graph.Spells part target → Asks (.declaration (.type id)) target
  | operation {container : Container} {operation : Operation} {target : Target} :
      operation ∈ graph.operations container → graph.OperationAsks operation target →
      Asks (.declaration container.declaration) target
  | anonymous {id part : TypeId} {target : Target} : graph.IsMember id part →
      graph.Spells part target → Asks (.anonymous id) target
  | subset {id part : TypeId} {base : String} {target : Target} :
      graph.IsSubsetMember id base part → graph.Spells part target → Asks (.subset id base) target

variable {graph}

/-! ### Subsets are determined by their names -/

/-- The names of the two sides of operations are different, if the success side is a subset. -/
theorem sideName_ne {operation other : Operation} (h : graph.NeedsSubset operation false) :
  operation.sideName graph false ≠ other.sideName graph true
  := by
  obtain ⟨union, hkind, -, hlength⟩ := h
  have herrors : (union.side graph true).isEmpty = false := by
    rw [List.isEmpty_eq_false_iff]
    intro hempty
    have hadd := union.length_side_add graph
    rw [hempty, List.length_nil, Nat.zero_add] at hadd
    apply hlength hadd
  simp only [Operation.sideName, hkind, herrors]
  intro heq
  have hlist := congrArg (fun text : String => text.toList.reverse) heq
  simp [String.toList_append] at hlist

/-- A name belongs to one subset of a union only. -/
theorem ReturnsSubset.unique {id : TypeId} {variants others : List Nat} {base : String}
    (h : graph.ReturnsSubset id variants base) (h' : graph.ReturnsSubset id others base) :
  variants = others
  := by
  obtain ⟨operation, -, union, errors, rfl, hkind, rfl, rfl, hlength, hall⟩ := h
  obtain ⟨other, -, union', errors', hreturn, hkind', rfl, hname, hlength', hall'⟩ := h'
  obtain rfl : union = union' := by
    rw [hkind] at hkind'
    cases hkind'
    rfl
  have hneeds : graph.NeedsSubset operation errors := ⟨union, hkind, hlength, hall⟩
  have hneeds' : graph.NeedsSubset other errors' := by
    rw [← hreturn] at hkind
    exact ⟨union, hkind, hlength', hall'⟩
  cases errors with
  | true =>
      cases errors' with
      | true => rfl
      | false => apply absurd hname.symm (sideName_ne hneeds')
  | false =>
      cases errors' with
      | true => apply absurd hname (sideName_ne hneeds)
      | false => rfl

/-! ### Closed sets of targets -/

/-- A type of a kind that is no value is none. -/
theorem isValue_of_kind? {id : TypeId} {kind : TypeKind} (hkind : graph.kind? id = some kind)
    (h : kind.isValue = false) :
  graph.isValue id = false
  := by
  rw [isValue, hkind]
  apply h

/-- A type that is spelled by a name is no value. -/
theorem isValue_of_isReference {id : TypeId} {kind : TypeKind}
    (hkind : graph.kind? id = some kind) (h : kind.isReference = true) :
  graph.isValue id = false
  := by
  apply isValue_of_kind? hkind
  cases kind with
  | record _ | union _ | enum _ | interface _ => rfl
  | _ => cases h

/-- An array or a map is no value. -/
theorem IsElement.isValue {id part : TypeId} (h : graph.IsElement id part) :
  graph.isValue id = false
  := by
  rcases h with h | h
  · apply isValue_of_kind? h rfl
  · apply isValue_of_kind? h rfl

/-- A value type names nothing. -/
theorem isValue_of_names {id target : TypeId} (h : graph.Names id target) :
  graph.isValue id = false
  := by
  cases h with
  | named hnamed =>
      obtain ⟨kind, hkind, hreference, -⟩ := hnamed
      apply isValue_of_isReference hkind hreference
  | element helement _ => apply helement.isValue
  | member hanonymous _ _ =>
      obtain ⟨kind, hkind, hreference, -⟩ := hanonymous
      apply isValue_of_isReference hkind hreference

/-- A value type asks for nothing. -/
theorem isValue_of_spells {id : TypeId} {target : Target} (h : graph.Spells id target) :
  graph.isValue id = false
  := by
  cases h with
  | named hnamed =>
      obtain ⟨kind, hkind, hreference, -⟩ := hnamed
      apply isValue_of_isReference hkind hreference
  | anonymous hanonymous =>
      obtain ⟨kind, hkind, hreference, -⟩ := hanonymous
      apply isValue_of_isReference hkind hreference
  | element helement _ => apply helement.isValue

/-- Whether a set of targets contains all that its members ask for. -/
def Closed (graph : TypeGraph) (holds : Target → Prop) : Prop :=
  ∀ target other, holds target → graph.Asks target other → holds other

/-- A closed set that has what a type is spelled as has what the type names. -/
theorem Closed.of_names {holds : Target → Prop} (hclosed : graph.Closed holds) {id target : TypeId}
    (h : graph.Names id target) (hspells : ∀ other, graph.Spells id other → holds other) :
  holds (.declaration (.type target))
  := by
  induction h with
  | named hnamed => apply hspells _ (.named hnamed)
  | element helement _ ih =>
      apply ih
      intro other hother
      apply hspells other (.element helement hother)
  | @member id part target hanonymous hmember _ ih =>
      apply ih
      intro other hother
      apply hclosed (.anonymous id) other (hspells _ (.anonymous hanonymous))
      apply Asks.anonymous hmember hother

/-- A type that is no union is on one side. -/
theorem sideType?_plain {operation : Operation}
    (h : ∀ union, graph.kind? operation.returnType ≠ some (.union union)) (errors : Bool) :
  graph.sideType? operation errors
    = if graph.isErrorRecord operation.returnType = errors then some operation.returnType else none
  := by
  unfold sideType?
  split
  case h_1 union hkind => apply absurd hkind (h union)
  case h_2 => rfl

/-- A side with all of several variants is the union. -/
theorem sideType?_whole {operation : Operation} {union : UnionType} {errors : Bool}
    (hkind : graph.kind? operation.returnType = some (.union union))
    (hlength : 2 ≤ (union.side graph errors).length)
    (hall : (union.side graph errors).length = union.variants.length) :
  graph.sideType? operation errors = some operation.returnType
  := by
  simp only [sideType?, hkind]
  split
  case h_1 hside =>
    rw [hside] at hlength
    cases hlength
  case h_2 hside =>
    rw [hside] at hlength
    apply absurd hlength (Nat.not_succ_le_self 1)
  case h_3 => rw [if_pos hall]

/-- A variant is spelled on its side, or the union is if it is one-sided, or a subset is needed. -/
theorem sideType?_or_needsSubset {operation : Operation} {union : UnionType}
    (hkind : graph.kind? operation.returnType = some (.union union)) {position : Nat}
    {variant : UnionVariant} (hvariant : union.variants[position]? = some variant) {errors : Bool}
    (hside : graph.isErrorRecord variant.type = errors) :
  graph.sideType? operation errors = some variant.type
    ∨ (graph.OneSided union ∧ graph.sideType? operation errors = some operation.returnType)
    ∨ graph.NeedsSubset operation errors
  := by
  have hmem : position ∈ union.side graph errors :=
    UnionType.mem_side.mpr ⟨variant, hvariant, hside⟩
  match hpositions : union.side graph errors with
  | [] =>
      rw [hpositions] at hmem
      cases hmem
  | [other] =>
      rw [hpositions, List.mem_singleton] at hmem
      subst hmem
      apply Or.inl
      simp only [sideType?, hkind, hpositions, hvariant, Option.map_some]
  | first :: second :: rest =>
      have hlength : 2 ≤ (union.side graph errors).length := by
        rw [hpositions]
        apply Nat.le_add_left
      apply Or.inr
      by_cases hall : (union.side graph errors).length = union.variants.length
      · apply Or.inl
        use ⟨hall ▸ hlength, errors, (union.length_side_eq_iff graph errors).mp hall⟩
        apply sideType?_whole hkind hlength hall
      · apply Or.inr ⟨union, hkind, hlength, hall⟩

/-- A closed set that has what an operation asks for has what the operation names. -/
theorem Closed.of_operationNames {holds : Target → Prop} (hclosed : graph.Closed holds)
    {operation : Operation} {target : TypeId} (hoperation : operation ∈ graph.everyOperation)
    (h : graph.OperationNames operation target)
    (hasks : ∀ other, graph.OperationAsks operation other → holds other) :
  holds (.declaration (.type target))
  := by
  have hside {errors : Bool} {id : TypeId} (hid : graph.sideType? operation errors = some id)
      (hnames : graph.Names id target) : holds (.declaration (.type target)) := by
    apply hclosed.of_names hnames
    intro other hother
    apply hasks other (.side hid hother)
  cases h with
  | @parameter parameter hparameter hvalue hnames =>
      apply hclosed.of_names hnames
      intro other hother
      apply hasks other (.parameter hparameter hvalue hother)
  | whole hwhole hnames =>
      by_cases hunion : ∃ union, graph.kind? operation.returnType = some (.union union)
      · obtain ⟨union, hkind⟩ := hunion
        obtain ⟨hlength, errors, hall⟩ := hwhole union hkind
        have hall := (union.length_side_eq_iff graph errors).mpr hall
        apply hside (sideType?_whole hkind (hall.symm ▸ hlength) hall) hnames
      · have hplain := sideType?_plain (fun union hkind => hunion ⟨union, hkind⟩)
          (graph.isErrorRecord operation.returnType)
        rw [if_pos rfl] at hplain
        apply hside hplain hnames
  | @variant union variant hkind hsides hvariant hnames =>
      obtain ⟨position, hlt, hget⟩ := List.getElem_of_mem hvariant
      have hvariant : union.variants[position]? = some variant := by
        rw [List.getElem?_eq_getElem hlt, hget]
      rcases sideType?_or_needsSubset hkind hvariant rfl with hid | ⟨hone, -⟩ | hneeds
      · apply hside hid hnames
      · apply absurd hone hsides
      · -- The variant is spelled where the subset is declared.
        have hsubset := hasks _ (.subset hneeds)
        apply hclosed.of_names hnames
        intro other hother
        apply hclosed _ other hsubset
        obtain ⟨union', hkind', hlength, hall⟩ := hneeds
        obtain rfl : union = union' := by
          rw [hkind] at hkind'
          cases hkind'
          rfl
        apply Asks.subset _ hother
        apply IsSubsetMember.variant
          ⟨operation, hoperation, union, _, rfl, hkind, rfl, rfl, hlength, hall⟩ hkind
          (UnionType.mem_side.mpr ⟨variant, hvariant, rfl⟩) hvariant (isValue_of_names hnames)

/-! ### What is asked for is mentioned -/

/-- Whether a target is justified by a set of declarations: the set has the declaration, or else
whatever the types that the target spells name. -/
def Justified (graph : TypeGraph) (needed : DeclarationRef → Prop) : Target → Prop
  | .declaration declaration => needed declaration
  | .anonymous id => ∀ part target, graph.IsMember id part → graph.Names part target →
      needed (.type target)
  | .subset id base => ∀ part target, graph.IsSubsetMember id base part →
      graph.Names part target → needed (.type target)

variable {needed : DeclarationRef → Prop}

/-- What a type is spelled as is justified by what the type names. -/
theorem justified_of_spells {id : TypeId} {target : Target}
    (h : ∀ other, graph.Names id other → needed (.type other)) (hspells : graph.Spells id target) :
  graph.Justified needed target
  := by
  induction hspells with
  | named hnamed => apply h _ (.named hnamed)
  | anonymous hanonymous =>
      intro part other hmember hnames
      apply h other (.member hanonymous hmember hnames)
  | element helement _ ih =>
      apply ih
      intro other hnames
      apply h other (.element helement hnames)

/-- A union with some of its variants on a side, but not all, is not one-sided. -/
theorem not_oneSided {union : UnionType} {errors : Bool} {position : Nat}
    (hposition : position ∈ union.side graph errors)
    (hall : (union.side graph errors).length ≠ union.variants.length) :
  ¬graph.OneSided union
  := by
  rintro ⟨-, side, hside⟩
  obtain ⟨variant, hvariant, herrors⟩ := UnionType.mem_side.mp hposition
  obtain rfl : side = errors := by
    rw [← herrors, hside variant (List.mem_of_getElem? hvariant)]
  apply hall ((union.length_side_eq_iff graph side).mpr hside)

/-- What the type on a side names is named by the operation. -/
theorem operationNames_of_sideType? {operation : Operation} {errors : Bool} {id target : TypeId}
    (hid : graph.sideType? operation errors = some id) (hnames : graph.Names id target) :
  graph.OperationNames operation target
  := by
  unfold sideType? at hid
  split at hid
  case h_1 union hkind =>
    split at hid
    case h_1 => cases hid
    case h_2 position hside =>
      obtain ⟨variant, hvariant, rfl⟩ := Option.map_eq_some_iff.mp hid
      apply OperationNames.variant hkind _ (List.mem_of_getElem? hvariant) hnames
      intro hone
      have hposition : position ∈ union.side graph errors := by
        rw [hside]
        apply List.mem_singleton_self
      apply not_oneSided hposition _ hone
      rw [hside]
      intro hlength
      apply absurd hone.1
      rw [← hlength]
      apply Nat.not_succ_le_self 1
    case h_3 hempty hsingle =>
      split at hid
      case isTrue hall =>
        cases hid
        apply OperationNames.whole _ hnames
        intro union' hkind'
        rw [hkind] at hkind'
        cases hkind'
        refine ⟨?_, errors, (union.length_side_eq_iff graph errors).mp hall⟩
        rw [← hall]
        apply two_le_length hempty hsingle
      case isFalse => cases hid
  case h_2 hkind =>
    split at hid
    case isTrue =>
      cases hid
      apply OperationNames.whole _ hnames
      intro union hunion
      apply absurd hunion (hkind union)
    case isFalse => cases hid

/-- What an operation asks for is justified by what the operation names. -/
theorem justified_of_operationAsks {operation : Operation} {target : Target}
    (h : ∀ other, graph.OperationNames operation other → needed (.type other))
    (hasks : graph.OperationAsks operation target) :
  graph.Justified needed target
  := by
  cases hasks with
  | @subset errors hneeds =>
      intro part other hmember hnames
      obtain ⟨union, hkind, hlength, hall⟩ := hneeds
      obtain ⟨position, hposition⟩ :=
        List.exists_mem_of_length_pos (Nat.lt_of_lt_of_le Nat.two_pos hlength)
      cases hmember with
      | @variant variants union' _ variant _ hkind' _ hvariant _ =>
          rw [hkind] at hkind'
          cases hkind'
          apply h other
          apply OperationNames.variant hkind (not_oneSided hposition hall)
            (List.mem_of_getElem? hvariant) hnames
  | @side errors id target hid hspells =>
      apply justified_of_spells _ hspells
      intro other hnames
      apply h other (operationNames_of_sideType? hid hnames)
  | @parameter parameter target hparameter hvalue hspells =>
      apply justified_of_spells _ hspells
      intro other hnames
      apply h other (.parameter hparameter hvalue hnames)

/-- If a set of declarations has all that its members mention, then what a justified target asks for
is justified. -/
theorem Justified.of_asks
    (hneeded : ∀ declaration other, needed declaration → graph.Mentions declaration other →
      needed other)
    {target other : Target} (h : graph.Justified needed target) (hasks : graph.Asks target other) :
  graph.Justified needed other
  := by
  cases hasks with
  | member hmember hspells =>
      apply justified_of_spells _ hspells
      intro named hnames
      apply hneeded _ _ h (.member hmember hnames)
  | operation hoperation hasks =>
      apply justified_of_operationAsks _ hasks
      intro named hnames
      apply hneeded _ _ h (.operation hoperation hnames)
  | anonymous hmember hspells =>
      apply justified_of_spells _ hspells
      intro named hnames
      apply h _ _ hmember hnames
  | subset hmember hspells =>
      apply justified_of_spells _ hspells
      intro named hnames
      apply h _ _ hmember hnames

end TypeGraph

end ServiceBindings
