import ServiceBindings.Proofs.Draft.Asking

/-!
# What rendering asks for

Rendering a declaration asks for exactly the targets of the types that it spells, and so does a
synthetic declaration.  The split of an operation asks for the subsets that need a name; since it is
made once for each name of an operation, the names of the operations of a container have to be
distinct for this.
-/

namespace ServiceBindings

open Draft

/-- Whether a synthetic declaration is that of a target. -/
inductive Synthetic.IsFor (graph : TypeGraph) : Synthetic → Target → Prop where
  | anonymous {name : String} {id : TypeId} : IsFor graph (.anonymous name id) (.anonymous id)
  | subset {name : String} {id : TypeId} {variants : List Nat} {base : String} :
      graph.ReturnsSubset id variants base →
      IsFor graph (.subset name id variants) (.subset id base)

/-- Whether the operations of each container have different names. -/
def TypeGraph.DistinctOperations (graph : TypeGraph) : Prop :=
  ∀ container, ((graph.operations container).map (·.name)).Nodup

/-- Operations of one container with the same name are the same. -/
theorem TypeGraph.DistinctOperations.eq_of_name {graph : TypeGraph}
    (h : graph.DistinctOperations) {container : Container} {operation other : Operation}
    (hoperation : operation ∈ graph.operations container)
    (hother : other ∈ graph.operations container) (hname : other.name = operation.name) :
  other = operation
  := by
  apply List.inj_on_of_nodup_map (h container) hother hoperation hname

/-- It is enough to look at the containers that exist. -/
theorem TypeGraph.distinctOperations_iff {graph : TypeGraph} :
  graph.DistinctOperations
    ↔ (∀ ns ∈ graph.namespaces, (ns.operations.map (·.name)).Nodup)
      ∧ ∀ id ∈ graph.typeIds, ((graph.operations (.interface id)).map (·.name)).Nodup
  := by
  constructor
  · intro h
    constructor
    · intro ns hns
      obtain ⟨index, hindex⟩ := List.getElem?_of_mem hns
      have hgroup := h (.group ⟨index⟩)
      rw [operations, namespace?, hindex] at hgroup
      apply hgroup
    · intro id _
      apply h (.interface id)
  · rintro ⟨hnamespaces, htypes⟩ (id | id)
    · rw [operations]
      cases hns : graph.namespace? id with
      | none => apply List.nodup_nil
      | some ns => apply hnamespaces ns (List.mem_of_getElem? hns)
    · by_cases hid : id.index < graph.types.length
      · apply htypes id
        apply List.mem_map.mpr ⟨id.index, List.mem_range.mpr hid, rfl⟩
      · rw [operations, kind?, type?, List.getElem?_eq_none (Nat.le_of_not_lt hid)]
        apply List.nodup_nil

instance (graph : TypeGraph) : Decidable graph.DistinctOperations :=
  decidable_of_iff _ TypeGraph.distinctOperations_iff.symm

/-- The variants at given positions. -/
theorem Code.mem_selectVariants {union : UnionType} {selected : List Nat} {position : Nat}
    {variant : UnionVariant} :
  (position, variant) ∈ selectVariants union selected
    ↔ position ∈ selected ∧ union.variants[position]? = some variant
  := by
  rw [selectVariants, List.mem_filterMap]
  constructor
  · rintro ⟨index, hindex, heq⟩
    obtain ⟨found, hfound, heq⟩ := Option.map_eq_some_iff.mp heq
    cases heq
    use hindex
  · rintro ⟨hposition, hvariant⟩
    use position, hposition
    rw [hvariant]
    rfl

/-! ### Members -/

namespace TypeGraph

variable {graph : TypeGraph} {id : TypeId} {target : Target}

/-- Only types that carry information ask for anything. -/
theorem exists_spells_filter {α : Type} {items : List α} {type : α → TypeId} :
  (∃ item ∈ items.filter fun item => !graph.isValue (type item), graph.Spells (type item) target)
    ↔ ∃ item ∈ items, graph.Spells (type item) target
  := by
  constructor
  · rintro ⟨item, hitem, hspells⟩
    use item, (List.mem_filter.mp hitem).1
  · rintro ⟨item, hitem, hspells⟩
    refine ⟨item, List.mem_filter.mpr ⟨hitem, ?_⟩, hspells⟩
    rw [isValue_of_spells hspells]
    rfl

/-- The members of a record ask for what its fields ask for. -/
theorem members_record {record : RecordType} (hkind : graph.kind? id = some (.record record)) :
  (∃ part, graph.IsMember id part ∧ graph.Spells part target)
    ↔ ∃ field ∈ record.fields, graph.Spells field.type target
  := by
  constructor
  · rintro ⟨part, hmember, hspells⟩
    cases hmember with
    | @field record' field hkind' hfield _ =>
        rw [hkind] at hkind'
        cases hkind'
        use field
    | variant hkind' _ _ =>
        rw [hkind] at hkind'
        cases hkind'
  · rintro ⟨field, hfield, hspells⟩
    use field.type, .field hkind hfield (isValue_of_spells hspells)

/-- The members of a union ask for what its variants ask for. -/
theorem members_union {union : UnionType} (hkind : graph.kind? id = some (.union union)) :
  (∃ part, graph.IsMember id part ∧ graph.Spells part target)
    ↔ ∃ variant ∈ union.variants, graph.Spells variant.type target
  := by
  constructor
  · rintro ⟨part, hmember, hspells⟩
    cases hmember with
    | field hkind' _ _ =>
        rw [hkind] at hkind'
        cases hkind'
    | @variant union' variant hkind' hvariant _ =>
        rw [hkind] at hkind'
        cases hkind'
        use variant
  · rintro ⟨variant, hvariant, hspells⟩
    use variant.type, .variant hkind hvariant (isValue_of_spells hspells)

/-- A type asks for what its members and its operations ask for. -/
theorem asks_type :
  graph.Asks (.declaration (.type id)) target
    ↔ (∃ part, graph.IsMember id part ∧ graph.Spells part target)
      ∨ ∃ operation ∈ graph.operations (.interface id), graph.OperationAsks operation target
  := by
  constructor
  · intro h
    generalize hfrom : Target.declaration (.type id) = source at h
    cases h with
    | member hmember hspells =>
        cases hfrom
        apply Or.inl ⟨_, hmember, hspells⟩
    | @operation container operation _ hoperation hasks =>
        cases container with
        | group ns => cases hfrom
        | interface other =>
            cases hfrom
            apply Or.inr ⟨operation, hoperation, hasks⟩
    | anonymous _ _ => cases hfrom
    | subset _ _ => cases hfrom
  · rintro (⟨part, hmember, hspells⟩ | ⟨operation, hoperation, hasks⟩)
    · apply Asks.member hmember hspells
    · have hcontainer := Asks.operation hoperation hasks
      apply hcontainer

/-- A type that is no interface asks for what its members ask for. -/
theorem asks_type_of_members {kind : TypeKind} (hkind : graph.kind? id = some kind)
    (h : ∀ interface, kind ≠ .interface interface) :
  graph.Asks (.declaration (.type id)) target
    ↔ ∃ part, graph.IsMember id part ∧ graph.Spells part target
  := by
  have hnone : graph.operations (.interface id) = [] := by
    rw [operations]
    split
    case h_1 interface hkind' =>
      rw [hkind] at hkind'
      cases hkind'
      apply absurd rfl (h interface)
    case h_2 => rfl
  rw [asks_type, hnone]
  simp

/-- A type that is neither a record nor a union has no members. -/
theorem not_isMember {kind : TypeKind} {part : TypeId} (hkind : graph.kind? id = some kind)
    (hrecord : ∀ record, kind ≠ .record record) (hunion : ∀ union, kind ≠ .union union) :
  ¬graph.IsMember id part
  := by
  intro hmember
  cases hmember with
  | @field record _ hkind' _ _ =>
      rw [hkind] at hkind'
      cases hkind'
      apply absurd rfl (hrecord record)
  | @variant union _ hkind' _ _ =>
      rw [hkind] at hkind'
      cases hkind'
      apply absurd rfl (hunion union)

/-- A namespace asks for what its operations ask for. -/
theorem asks_operations {ns : NamespaceId} :
  graph.Asks (.declaration (.operations ns)) target
    ↔ ∃ operation ∈ graph.operations (.group ns), graph.OperationAsks operation target
  := by
  constructor
  · intro h
    generalize hfrom : Target.declaration (.operations ns) = source at h
    cases h with
    | member _ _ => cases hfrom
    | @operation container operation _ hoperation hasks =>
        cases container with
        | group other =>
            cases hfrom
            use operation
        | interface id => cases hfrom
    | anonymous _ _ => cases hfrom
    | subset _ _ => cases hfrom
  · rintro ⟨operation, hoperation, hasks⟩
    have hcontainer := Asks.operation hoperation hasks
    apply hcontainer

theorem asks_anonymous :
  graph.Asks (.anonymous id) target
    ↔ ∃ part, graph.IsMember id part ∧ graph.Spells part target
  := by
  constructor
  · intro h
    cases h with
    | anonymous hmember hspells => exact ⟨_, hmember, hspells⟩
  · rintro ⟨part, hmember, hspells⟩
    apply Asks.anonymous hmember hspells

/-- A subset of a union asks for what its variants ask for. -/
theorem asks_subset {union : UnionType} {variants : List Nat} {base : String}
    (hsubset : graph.ReturnsSubset id variants base)
    (hkind : graph.kind? id = some (.union union)) :
  graph.Asks (.subset id base) target
    ↔ ∃ position ∈ variants, ∃ variant, union.variants[position]? = some variant
      ∧ graph.Spells variant.type target
  := by
  constructor
  · intro h
    cases h with
    | subset hmember hspells =>
        cases hmember with
        | @variant variants' union' position variant hsubset' hkind' hposition hvariant _ =>
            rw [hkind] at hkind'
            cases hkind'
            rw [hsubset.unique hsubset']
            use position, hposition, variant
  · rintro ⟨position, hposition, variant, hvariant, hspells⟩
    apply Asks.subset _ hspells
    apply IsSubsetMember.variant hsubset hkind hposition hvariant (isValue_of_spells hspells)

end TypeGraph

/-! ### Records and unions -/

namespace Job

open Drafting

variable (job : Job)

theorem adapterOf_requests (field : Field) :
  Requests job.graph nothing nothing (job.adapterOf field)
  := by
  unfold adapterOf
  split
  case h_1 => apply Requests.pure
  case h_2 =>
    split
    case isTrue => apply Requests.pure
    case isFalse => apply (Requests.report _).bind_pure

theorem recordField_requests (id : TypeId) (name : String) (path : ModulePath) (field : Field) :
  Requests job.graph (job.graph.Spells field.type) (job.graph.Spells field.type)
    (job.recordField id name path field)
  := by
  apply (job.spell_requests _ _ _ _ _).before
  intro type
  apply (job.adapterOf_requests field).bind_pure

/-- A struct asks for what the members of the record ask for. -/
theorem recordDecl_requests {id : TypeId} {record : RecordType}
    (hkind : job.graph.kind? id = some (.record record)) (name : String) (path : ModulePath) :
  Requests job.graph (fun target => ∃ part, job.graph.IsMember id part
      ∧ job.graph.Spells part target)
    (fun target => ∃ part, job.graph.IsMember id part ∧ job.graph.Spells part target)
    (job.recordDecl id record name path)
  := by
  apply Requests.congr
  · apply Requests.bind_pure
    apply Requests.mapM
    intro field _
    apply job.recordField_requests id name path field
  intro target
  rw [TypeGraph.members_record hkind]
  symm
  apply TypeGraph.exists_spells_filter

/-- The payload of a variant asks for what its type asks for, which is nothing for a value. -/
theorem payload_requests (id : TypeId) (path : ModulePath) (preferred : String) (index : Nat)
    (variant : UnionVariant) :
  Requests job.graph (job.graph.Spells variant.type) (job.graph.Spells variant.type)
    (job.payload id path preferred index variant)
  := by
  unfold payload
  split
  case h_1 hkind =>
    apply (Requests.pure _).congr
    intro target
    apply iff_of_false (TypeGraph.not_spells hkind rfl (by simp)) fun h => h
  case h_2 hkind =>
    apply (Requests.pure _).congr
    intro target
    apply iff_of_false (TypeGraph.not_spells hkind rfl (by simp)) fun h => h
  case h_3 => apply (job.spell_requests _ _ _ _ _).bind_pure

/-- The enum of some variants of a union asks for what these ask for. -/
theorem unionDecl_requests (id : TypeId) (union : UnionType) (selected : List Nat)
    (doc : Option String) (name : String) (path : ModulePath) :
  Requests job.graph
    (fun target => ∃ position ∈ selected, ∃ variant, union.variants[position]? = some variant
      ∧ job.graph.Spells variant.type target)
    (fun target => ∃ position ∈ selected, ∃ variant, union.variants[position]? = some variant
      ∧ job.graph.Spells variant.type target)
    (job.unionDecl id union selected doc name path)
  := by
  let variants := Code.selectVariants union selected
  let idents := Code.variantIdents job.graph variants
  have hlength : idents.length = variants.length := by
    simp [idents, Code.variantIdents, NameScope.length_assignAll]
  apply Requests.congr
  · apply Requests.bind_pure
    apply Requests.mapM
    intro member _
    apply (job.payload_requests _ _ _ member.2.1 member.2.2).bind_pure
  intro target
  constructor
  · rintro ⟨position, hposition, variant, hvariant, hspells⟩
    have hmem : (position, variant) ∈ variants :=
      Code.mem_selectVariants.mpr ⟨hposition, hvariant⟩
    rw [← List.map_snd_zip (Nat.le_of_eq hlength.symm), List.mem_map] at hmem
    obtain ⟨member, hmember, heq⟩ := hmem
    refine ⟨member, hmember, ?_⟩
    rw [heq]
    apply hspells
  · rintro ⟨⟨ident, position, variant⟩, hmember, hspells⟩
    obtain ⟨hposition, hvariant⟩ := Code.mem_selectVariants.mp (List.of_mem_zip hmember).2
    use position, hposition, variant

/-- The enum of all variants of a union asks for what its members ask for. -/
theorem unionDecl_all_requests {id : TypeId} {union : UnionType}
    (hkind : job.graph.kind? id = some (.union union)) (doc : Option String) (name : String)
    (path : ModulePath) :
  Requests job.graph (fun target => ∃ part, job.graph.IsMember id part
      ∧ job.graph.Spells part target)
    (fun target => ∃ part, job.graph.IsMember id part ∧ job.graph.Spells part target)
    (job.unionDecl id union (List.range union.variants.length) doc name path)
  := by
  apply (job.unionDecl_requests id union _ doc name path).congr
  intro target
  rw [TypeGraph.members_union hkind]
  constructor
  · rintro ⟨variant, hvariant, hspells⟩
    obtain ⟨position, hposition⟩ := List.getElem?_of_mem hvariant
    have hlt := (List.getElem?_eq_some_iff.mp hposition).1
    use position, List.mem_range.mpr hlt, variant
  · rintro ⟨position, _, variant, hvariant, hspells⟩
    use variant, List.mem_of_getElem? hvariant

end Job

/-! ### Sides of operations -/

namespace TypeGraph

variable (graph : TypeGraph)

/-- The subsets that an operation needs. -/
def AsksSubset (operation : Operation) (target : Target) : Prop :=
  ∃ errors, graph.NeedsSubset operation errors
    ∧ target = .subset operation.returnType (operation.sideName graph errors)

/-- What a side of an operation is spelled as. -/
def AsksSide (operation : Operation) (errors : Bool) (target : Target) : Prop :=
  ∃ id, graph.sideType? operation errors = some id ∧ graph.Spells id target

/-- What the split of an operation and its two sides ask for. -/
def AsksSides (operation : Operation) (target : Target) : Prop :=
  graph.AsksSubset operation target ∨ ∃ errors, graph.AsksSide operation errors target

variable {graph}

/-- An operation asks for what its sides and its parameters ask for. -/
theorem operationAsks_iff {operation : Operation} {target : Target} :
  graph.OperationAsks operation target
    ↔ graph.AsksSides operation target
      ∨ ∃ parameter ∈ operation.parameters, graph.Spells parameter.type target
  := by
  constructor
  · intro h
    cases h with
    | subset hneeds => apply Or.inl (Or.inl ⟨_, hneeds, rfl⟩)
    | side hid hspells => apply Or.inl (Or.inr ⟨_, _, hid, hspells⟩)
    | parameter hparameter _ hspells => apply Or.inr ⟨_, hparameter, hspells⟩
  · rintro ((⟨errors, hneeds, rfl⟩ | ⟨errors, id, hid, hspells⟩) | ⟨parameter, hparameter, hspells⟩)
    · apply OperationAsks.subset hneeds
    · apply OperationAsks.side hid hspells
    · apply OperationAsks.parameter hparameter (isValue_of_spells hspells) hspells

end TypeGraph

namespace IsSide

variable {graph : TypeGraph} {subsets : List ((TypeId × String) × String)} {operation : Operation}
  {errors : Bool} {side : ReturnSide}

/-- The type of a side. -/
theorem type (h : IsSide graph subsets operation errors side) :
  graph.sideType? operation errors
    = match side with
      | .type id _ => some id
      | _ => none
  := by
  cases h with
  | plain hkind hside => rw [TypeGraph.sideType?_plain hkind, if_pos hside]
  | absent hkind hside => rw [TypeGraph.sideType?_plain hkind, if_neg hside]
  | empty hkind hempty => simp only [TypeGraph.sideType?, hkind, hempty]
  | single hkind hsingle hvariant =>
      simp only [TypeGraph.sideType?, hkind, hsingle, hvariant, Option.map_some]
  | whole hkind hlength hall => apply TypeGraph.sideType?_whole hkind hlength hall
  | @subset union _ hkind hlength hall _ =>
      simp only [TypeGraph.sideType?, hkind]
      split
      case h_1 => rfl
      case h_2 hside =>
        rw [hside] at hlength
        apply absurd hlength (Nat.not_succ_le_self 1)
      case h_3 => rw [if_neg hall]

/-- A side that is a subset has its name. -/
theorem lookup (h : IsSide graph subsets operation errors side)
    (hneeds : graph.NeedsSubset operation errors) :
  ∃ name, subsets.lookup (operation.returnType, operation.sideName graph errors) = some name
  := by
  obtain ⟨union, hkind, hlength, hall⟩ := hneeds
  have hunion {union' : UnionType}
      (hkind' : graph.kind? operation.returnType = some (.union union')) : union = union' := by
    rw [hkind] at hkind'
    cases hkind'
    rfl
  cases h with
  | plain hplain _ => apply absurd hkind (hplain union)
  | absent hplain _ => apply absurd hkind (hplain union)
  | empty hkind' hempty =>
      obtain rfl := hunion hkind'
      rw [hempty] at hlength
      cases hlength
  | single hkind' hsingle _ =>
      obtain rfl := hunion hkind'
      rw [hsingle] at hlength
      apply absurd hlength (Nat.not_succ_le_self 1)
  | whole hkind' _ hall' =>
      obtain rfl := hunion hkind'
      apply absurd hall' hall
  | subset _ _ _ hname => exact ⟨_, hname⟩

end IsSide

namespace Job

open Drafting

variable (job : Job)

theorem subsetName_requests {id : TypeId} {variants : List Nat} {base : String}
    (h : job.graph.ReturnsSubset id variants base) :
  Requests job.graph (· = .subset id base) (· = .subset id base) (subsetName id variants base)
  := by
  intro d name e hd hexec
  obtain ⟨name', e', hexec', hgrowth, -, hname⟩ := job.subsetName_spec h d
  rw [hexec'] at hexec
  cases hexec
  refine ⟨hgrowth.consistent hd, hgrowth.later, ?_, ?_⟩
  · rintro target rfl
    use name
  · rw [subsetName, exec_get_bind] at hexec'
    split at hexec'
    case h_1 =>
      cases hexec'
      intro target htarget
      apply Or.inl htarget
    case h_2 =>
      cases hexec'
      intro target htarget
      cases target with
      | declaration declaration => apply Or.inl htarget
      | anonymous other => apply Or.inl htarget
      | subset other base' =>
          obtain ⟨name, hname⟩ := htarget
          rcases lookup_cons_eq_some hname with hother | hknown
          · cases hother
            apply Or.inr rfl
          · apply Or.inl ⟨name, hknown⟩

/-- A side of a union asks for its subset if it needs one. -/
theorem returnSide_requests {operation : Operation}
    (hoperation : operation ∈ job.graph.everyOperation) {union : UnionType}
    (hkind : job.graph.kind? operation.returnType = some (.union union)) (errors : Bool) :
  Requests job.graph
    (fun target => job.graph.NeedsSubset operation errors
      ∧ target = .subset operation.returnType (operation.sideName job.graph errors))
    (fun target => job.graph.NeedsSubset operation errors
      ∧ target = .subset operation.returnType (operation.sideName job.graph errors))
    (returnSide operation.returnType union (union.side job.graph errors)
      (operation.sideName job.graph errors))
  := by
  -- A side that needs a subset has the length of one.
  have hneeds : job.graph.NeedsSubset operation errors
      ↔ 2 ≤ (union.side job.graph errors).length
        ∧ (union.side job.graph errors).length ≠ union.variants.length := by
    simp [TypeGraph.NeedsSubset, hkind]
  unfold returnSide
  split
  case h_1 hside =>
    apply (Requests.pure _).congr
    intro target
    simp [hneeds, hside, nothing]
  case h_2 position hside =>
    split
    case h_1 =>
      apply (Requests.pure _).congr
      intro target
      simp [hneeds, hside, nothing]
    case h_2 =>
      apply (Requests.pure _).congr
      intro target
      simp [hneeds, hside, nothing]
  case h_3 hempty hsingle =>
    have hlength := two_le_length hempty hsingle
    split
    case isTrue hall =>
      apply (Requests.pure _).congr
      intro target
      simp [hneeds, hall, nothing]
    case isFalse hall =>
      apply Requests.congr
      · apply Requests.bind_pure
        apply job.subsetName_requests
          ⟨operation, hoperation, union, errors, rfl, hkind, rfl, rfl, hlength, hall⟩
      · intro target
        simp [hneeds, hlength, hall]

/-- A split that is made asks for the subsets that it needs. -/
theorem makeSplit_requests {container : Container} {operation : Operation}
    (hoperation : operation ∈ job.graph.operations container) :
  Requests job.graph (job.graph.AsksSubset operation) (job.graph.AsksSubset operation)
    (job.makeSplit container operation)
  := by
  have hevery := TypeGraph.mem_everyOperation hoperation
  by_cases hunion : ∃ union, job.graph.kind? operation.returnType = some (.union union)
  · obtain ⟨union, hkind⟩ := hunion
    rw [job.makeSplit_union container hkind]
    apply (job.placeOfContainer_requests container).after
    intro _
    apply Requests.congr
    · apply (job.returnSide_requests hevery hkind false).bind
      intro success
      apply (job.returnSide_requests hevery hkind true).bind_pure
    · intro target
      rw [TypeGraph.AsksSubset, Bool.exists_bool]
  · have hkind : ∀ union, job.graph.kind? operation.returnType ≠ some (.union union) :=
      fun union hunion' => hunion ⟨union, hunion'⟩
    have hnothing (target : Target) : job.graph.AsksSubset operation target ↔ nothing target := by
      simp [TypeGraph.AsksSubset, TypeGraph.NeedsSubset, hkind, nothing]
    rw [job.makeSplit_plain container hkind]
    split
    case isTrue => apply (Requests.pure _).congr hnothing
    case isFalse => apply (Requests.pure _).congr hnothing

variable {job}

/-- A split that a consistent draft has is that of the operation. -/
theorem isSide_of_lookup (hdistinct : job.graph.DistinctOperations) {container : Container}
    {operation : Operation} (hoperation : operation ∈ job.graph.operations container) {d : Draft}
    (hd : Consistent job.graph d) {split : ReturnSplit}
    (hsplit : d.splits.lookup ⟨container, operation.name⟩ = some split) :
  IsSide job.graph d.subsets operation false split.success
    ∧ IsSide job.graph d.subsets operation true split.error
  := by
  obtain ⟨other, hother, hname, hsides⟩ := hd.splits_valid _ _ hsplit
  obtain rfl := hdistinct.eq_of_name hoperation hother hname
  apply hsides

/-- The split of an operation asks for the subsets that it needs, whether it is made or known. -/
theorem splitReturn_requests (hdistinct : job.graph.DistinctOperations) {container : Container}
    {operation : Operation} (hoperation : operation ∈ job.graph.operations container) :
  Requests job.graph (job.graph.AsksSubset operation) (job.graph.AsksSubset operation)
    (job.splitReturn container operation)
  := by
  intro d split e hd hexec
  have hgrowth := (job.splitReturn_steady hoperation).growth hexec
  have he := hgrowth.consistent hd
  have hknown := isSide_of_lookup hdistinct hoperation he (job.splitReturn_eq_ok hexec)
  refine ⟨he, hgrowth.later, ?_, ?_⟩
  · rintro target ⟨errors, hneeds, rfl⟩
    cases errors with
    | false => apply hknown.1.lookup hneeds
    | true => apply hknown.2.lookup hneeds
  · rw [splitReturn, exec_get_bind] at hexec
    split at hexec
    case h_1 =>
      cases hexec
      intro target htarget
      apply Or.inl htarget
    case h_2 =>
      obtain ⟨made, d', hmade, hrest⟩ := exec_bind_eq_ok.mp hexec
      obtain ⟨-, -, -, hnew⟩ := job.makeSplit_requests hoperation hd hmade
      cases hrest
      intro target htarget
      apply hnew target (htarget.of_kept rfl rfl rfl)

/-- The sides of the split of an operation. -/
theorem splitReturn_sides (hdistinct : job.graph.DistinctOperations) {container : Container}
    {operation : Operation} (hoperation : operation ∈ job.graph.operations container) {d e : Draft}
    {split : ReturnSplit} (hd : Consistent job.graph d)
    (h : exec (job.splitReturn container operation) d = (.ok split, e)) :
  ∃ subsets, IsSide job.graph subsets operation false split.success
    ∧ IsSide job.graph subsets operation true split.error
  := by
  have he := ((job.splitReturn_steady hoperation).growth h).consistent hd
  use e.subsets
  apply isSide_of_lookup hdistinct hoperation he (job.splitReturn_eq_ok h)

variable (job)

/-- A side is spelled as its type, if it is one. -/
theorem spellSide_requests {subsets : List ((TypeId × String) × String)} {operation : Operation}
    {errors : Bool} {side : ReturnSide} (h : IsSide job.graph subsets operation errors side)
    (path : ModulePath) :
  Requests job.graph (job.graph.AsksSide operation errors) (job.graph.AsksSide operation errors)
    (job.spellSide side path)
  := by
  have htype := h.type
  cases side with
  | nothing =>
      apply (Requests.pure _).congr
      intro target
      simp [TypeGraph.AsksSide, htype, nothing]
  | type id name =>
      apply (job.spell_requests _ _ _ _ _).congr
      intro target
      simp [TypeGraph.AsksSide, htype]
  | union item =>
      apply (Requests.pure _).congr
      intro target
      simp [TypeGraph.AsksSide, htype, nothing]

/-- What follows the split of an operation and the spelling of its sides requests comes on top of
what these ask for. -/
theorem sides_requests (hdistinct : job.graph.DistinctOperations) {container : Container}
    {operation : Operation} (hoperation : operation ∈ job.graph.operations container)
    (path : ModulePath) {α : Type} {f : ReturnSplit → String → String → Drafting α}
    {must may : Target → Prop}
    (hf : ∀ split success error, Requests job.graph must may (f split success error)) :
  Requests job.graph (fun target => job.graph.AsksSides operation target ∨ must target)
    (fun target => job.graph.AsksSides operation target ∨ may target)
    (do
      let split ← job.splitReturn container operation
      let success ← job.spellSide split.success path
      let error ← job.spellSide split.error path
      f split success error)
  := by
  apply Requests.weaken
  · apply (splitReturn_requests hdistinct hoperation).bind_of
      (splitReturn_sides hdistinct hoperation)
    rintro split ⟨subsets, hsuccess, herror⟩
    apply (job.spellSide_requests hsuccess path).bind
    intro success
    apply (job.spellSide_requests herror path).bind
    intro error
    apply hf split success error
  · simp only [TypeGraph.AsksSides, Bool.exists_bool, or_assoc]
    intro target htarget
    apply htarget
  · simp only [TypeGraph.AsksSides, Bool.exists_bool, or_assoc]
    intro target htarget
    apply htarget

/-! ### Traits and declarations -/

theorem methodParameter_requests (operation : String) (path : ModulePath) (parameter : Field) :
  Requests job.graph (job.graph.Spells parameter.type) (job.graph.Spells parameter.type)
    (job.methodParameter operation path parameter) :=
  (job.spell_requests _ _ _ _ _).bind_pure _

/-- A method asks for what its operation asks for. -/
theorem method_requests (hdistinct : job.graph.DistinctOperations) {container : Container}
    {operation : Operation} (hoperation : operation ∈ job.graph.operations container)
    (trait : String) (path : ModulePath) :
  Requests job.graph (job.graph.OperationAsks operation) (job.graph.OperationAsks operation)
    (job.method container trait path operation)
  := by
  apply Requests.congr
  · apply job.sides_requests hdistinct hoperation path
    intro split success error
    apply Requests.bind_pure
    apply Requests.mapM
    intro parameter _
    apply job.methodParameter_requests operation.name path parameter
  · intro target
    rw [TypeGraph.operationAsks_iff]
    apply or_congr_right
    symm
    apply TypeGraph.exists_spells_filter

/-- A trait asks for what the operations of its container ask for. -/
theorem traitDecl_requests (hdistinct : job.graph.DistinctOperations) (container : Container)
    (name : String) (doc : Option String) (path : ModulePath) :
  Requests job.graph
    (fun target => ∃ operation ∈ job.graph.operations container,
      job.graph.OperationAsks operation target)
    (fun target => ∃ operation ∈ job.graph.operations container,
      job.graph.OperationAsks operation target)
    (job.traitDecl container name doc path)
  := by
  apply Requests.bind_pure
  apply Requests.mapM
  intro operation hoperation
  apply job.method_requests hdistinct hoperation name path

/-- The lines of a type ask for what the type asks for. -/
theorem typeLines_requests (hdistinct : job.graph.DistinctOperations) (id : TypeId) (name : String)
    (path : ModulePath) :
  Requests job.graph (job.graph.Asks (.declaration (.type id)))
    (job.graph.Asks (.declaration (.type id))) (job.typeLines id name path)
  := by
  unfold typeLines
  dsimp only
  split
  case h_1 record hkind =>
    apply ((job.recordDecl_requests hkind name path).bind_pure _).congr
    intro target
    apply TypeGraph.asks_type_of_members hkind (by simp)
  case h_2 enumeration hkind =>
    apply (Requests.pure _).congr
    intro target
    rw [TypeGraph.asks_type_of_members hkind (by simp)]
    simp [TypeGraph.not_isMember hkind, nothing]
  case h_3 union hkind =>
    apply ((job.unionDecl_all_requests hkind _ name path).bind_pure _).congr
    intro target
    apply TypeGraph.asks_type_of_members hkind (by simp)
  case h_4 interface hkind =>
    apply ((job.traitDecl_requests hdistinct (.interface id) name _ path).bind_pure _).congr
    intro target
    rw [TypeGraph.asks_type]
    simp [TypeGraph.not_isMember hkind]
  case h_5 scalar hkind =>
    apply ((job.spellScalar_requests id none .owned).bind_pure _).congr
    intro target
    rw [TypeGraph.asks_type_of_members hkind (by simp)]
    simp [TypeGraph.not_isMember hkind, nothing]
  case h_6 => apply Requests.throw

/-- Rendering a declaration asks for what the declaration asks for. -/
theorem render_requests (hdistinct : job.graph.DistinctOperations) (declaration : DeclarationRef) :
  Requests job.graph (job.graph.Asks (.declaration declaration))
    (job.graph.Asks (.declaration declaration)) (job.render declaration)
  := by
  cases declaration with
  | type id =>
      apply (job.declarationName_requests id).after
      intro name
      apply (job.placeOf_requests id).after
      intro m
      apply (Requests.pathOf m).after
      intro path
      apply (job.typeLines_requests hdistinct id name path).bind_pure
  | operations id =>
      apply (job.place_requests id).after
      intro m
      apply (Requests.pathOf m).after
      intro path
      apply ((job.traitDecl_requests hdistinct (.group id) _ none path).bind_pure _).congr
      intro target
      apply TypeGraph.asks_operations

/-- The lines of a synthetic declaration ask for what its target asks for. -/
theorem syntheticLines_requests {synthetic : Synthetic} {target : Target}
    (h : synthetic.IsFor job.graph target) :
  Requests job.graph (job.graph.Asks target) (job.graph.Asks target)
    (job.syntheticLines synthetic)
  := by
  unfold syntheticLines
  cases h with
  | @anonymous name id =>
      dsimp only
      split
      case h_1 record hkind =>
        apply ((job.recordDecl_requests hkind name _).bind_pure _).congr
        intro target
        apply TypeGraph.asks_anonymous
      case h_2 union hkind =>
        apply ((job.unionDecl_all_requests hkind _ name _).bind_pure _).congr
        intro target
        apply TypeGraph.asks_anonymous
      case h_3 => apply Requests.throw
  | @subset name id variants base hsubset =>
      dsimp only
      split
      case h_1 union hkind =>
        apply ((job.unionDecl_requests id union variants none name _).bind_pure _).congr
        intro target
        apply TypeGraph.asks_subset hsubset hkind
      case h_2 => apply Requests.throw

end Job

end ServiceBindings
