import ServiceBindings.Proofs.Draft.Stability

/-!
# Splits of what operations return

Each of the two sides that an operation returns is nothing, a type, or a subset of a union that has
a name of its own.  Splitting what an operation returns is steady, since the split is recorded.
-/

namespace ServiceBindings

open Draft

/-- The operations of a container are among all operations. -/
theorem TypeGraph.mem_everyOperation {graph : TypeGraph} {container : Container}
    {operation : Operation} (h : operation ∈ graph.operations container) :
  operation ∈ graph.everyOperation
  := by
  rw [everyOperation, List.mem_append, List.mem_flatMap, List.mem_flatMap]
  cases container with
  | group id =>
      rw [operations] at h
      cases hns : graph.namespace? id with
      | none =>
          rw [hns] at h
          cases h
      | some ns =>
          rw [hns] at h
          apply Or.inl
          use ns, List.mem_of_getElem? hns
          apply h
  | interface id =>
      apply Or.inr
      use id
      refine ⟨?_, h⟩
      rw [operations] at h
      split at h
      case h_1 hkind =>
        rw [typeIds, List.mem_map]
        use id.index
        rw [List.mem_range]
        use TypeGraph.declares_of_kind? hkind
      case h_2 => cases h

/-- The positions on a side of a union are those of variants on that side. -/
theorem UnionType.mem_side {graph : TypeGraph} {union : UnionType} {errors : Bool}
    {position : Nat} :
  position ∈ union.side graph errors
    ↔ ∃ variant, union.variants[position]? = some variant
      ∧ graph.isErrorRecord variant.type = errors
  := by
  simp [side, List.mem_map, List.mem_filter, List.mk_mem_zipIdx_iff_getElem?]

/-- A list that is neither empty nor a single item has two items. -/
theorem two_le_length {α : Type} {items : List α} (hempty : items = [] → False)
    (hsingle : ∀ a, items = [a] → False) :
  2 ≤ items.length
  := by
  match items with
  | [] => apply absurd rfl hempty
  | [a] => apply absurd rfl (hsingle a)
  | _ :: _ :: _ => apply Nat.le_add_left

/-- Whether two drafts have the same problems and the same splits. -/
structure Draft.SameRecords (d e : Draft) : Prop where
  diagnostics : e.diagnostics = d.diagnostics
  splits : e.splits = d.splits

theorem Draft.SameRecords.trans {c d e : Draft} (hcd : SameRecords c d) (hde : SameRecords d e) :
  SameRecords c e where
  diagnostics := hde.diagnostics.trans hcd.diagnostics
  splits := hde.splits.trans hcd.splits

namespace Job

open Drafting

variable (job : Job)

/-- A subset has a name after it was asked for. -/
theorem subsetName_spec {id : TypeId} {variants : List Nat} {base : String}
    (h : job.graph.ReturnsSubset id variants base) (d : Draft) :
  ∃ name e, exec (subsetName id variants base) d = (.ok name, e) ∧ Growth job.graph d e
    ∧ e.splits = d.splits ∧ e.subsets.lookup (id, base) = some name
  := by
  rw [subsetName, exec_get_bind]
  cases hknown : d.subsets.lookup (id, base) with
  | some name => use name, d, rfl, .refl, rfl, hknown
  | none =>
      use (d.nameSubset id variants base).1, (d.nameSubset id variants base).2, rfl,
        .single (.nameSubset d h hknown), rfl
      apply List.lookup_cons_self

/-- The side of a union is found without failure, and its subset gets a name if it needs one. -/
theorem returnSide_spec {operation : Operation} (hoperation : operation ∈ job.graph.everyOperation)
    {union : UnionType} (hkind : job.graph.kind? operation.returnType = some (.union union))
    (errors : Bool) (d : Draft) :
  ∃ side e, exec (returnSide operation.returnType union (union.side job.graph errors)
      (operation.sideName job.graph errors)) d = (.ok side, e)
    ∧ Growth job.graph d e ∧ e.splits = d.splits
    ∧ IsSide job.graph e.subsets operation errors side
  := by
  unfold returnSide
  split
  case h_1 hside =>
    use .nothing, d, rfl, .refl, rfl
    apply IsSide.empty hkind hside
  case h_2 position hside =>
    obtain ⟨variant, hvariant, -⟩ : ∃ variant, union.variants[position]? = some variant
        ∧ job.graph.isErrorRecord variant.type = errors := by
      rw [← UnionType.mem_side, hside]
      apply List.mem_singleton_self
    rw [hvariant]
    use .type variant.type (operation.sideName job.graph errors), d, rfl, .refl, rfl
    apply IsSide.single hkind hside hvariant
  case h_3 hempty hsingle =>
    have hlength := two_le_length hempty hsingle
    split
    case isTrue hall =>
      use .type operation.returnType (operation.sideName job.graph errors), d, rfl, .refl, rfl
      apply IsSide.whole hkind hlength hall
    case isFalse hall =>
      obtain ⟨name, e, hexec, hgrowth, hsplits, hname⟩ := job.subsetName_spec
        ⟨operation, hoperation, union, errors, rfl, hkind, rfl, rfl, hlength, hall⟩ d
      use .union ⟨syntheticPath, name⟩, e, exec_bind_of_ok hexec _, hgrowth, hsplits
      apply IsSide.subset hkind hlength hall hname

/-- The split of a union: its container has to have a module, and then there are two sides. -/
theorem makeSplit_union (container : Container) {operation : Operation} {union : UnionType}
    (hkind : job.graph.kind? operation.returnType = some (.union union)) :
  job.makeSplit container operation = (do
    let _ ← job.placeOfContainer container
    let success ← returnSide operation.returnType union (union.side job.graph false)
      (operation.sideName job.graph false)
    let error ← returnSide operation.returnType union (union.side job.graph true)
      (operation.sideName job.graph true)
    return ⟨success, error⟩)
  := by
  simp only [makeSplit, hkind, Operation.sideName]

/-- The split of a type that is no union. -/
theorem makeSplit_plain (container : Container) {operation : Operation}
    (hkind : ∀ union, job.graph.kind? operation.returnType ≠ some (.union union)) :
  job.makeSplit container operation
    = if job.graph.isErrorRecord operation.returnType then
        pure ⟨.nothing, .type operation.returnType (operation.sideName job.graph true)⟩
      else pure ⟨.type operation.returnType (operation.sideName job.graph false), .nothing⟩
  := by
  have hname : operation.sideName job.graph false = pascalCase operation.name ++ "Response" := by
    unfold Operation.sideName
    split
    case h_1 h => cases h
    case h_2 union _ hunion => apply absurd hunion (hkind union)
    case h_3 => rfl
  rw [hname]
  cases hreturn : job.graph.kind? operation.returnType with
  | none => simp only [makeSplit, hreturn, Operation.sideName]
  | some kind =>
      cases kind with
      | union union => apply absurd hreturn (hkind union)
      | _ => simp only [makeSplit, hreturn, Operation.sideName]

/-- Making the split of an operation makes the draft grow, and gives its two sides. -/
theorem makeSplit_spec {container : Container} {operation : Operation}
    (hoperation : operation ∈ job.graph.operations container) (d : Draft) :
  Growth job.graph d (exec (job.makeSplit container operation) d).2
    ∧ ∀ split e, exec (job.makeSplit container operation) d = (.ok split, e) →
      e.splits = d.splits ∧ IsSplit job.graph e.subsets ⟨container, operation.name⟩ split
  := by
  have hevery := TypeGraph.mem_everyOperation hoperation
  by_cases hunion : ∃ union, job.graph.kind? operation.returnType = some (.union union)
  · obtain ⟨union, hkind⟩ := hunion
    rw [job.makeSplit_union container hkind]
    -- After the container has its module nothing fails any more.
    have hrest (d' : Draft) : ∃ success error e, exec (do
        let success ← returnSide operation.returnType union (union.side job.graph false)
          (operation.sideName job.graph false)
        let error ← returnSide operation.returnType union (union.side job.graph true)
          (operation.sideName job.graph true)
        return (⟨success, error⟩ : ReturnSplit)) d' = (.ok ⟨success, error⟩, e)
        ∧ Growth job.graph d' e ∧ e.splits = d'.splits
        ∧ IsSide job.graph e.subsets operation false success
        ∧ IsSide job.graph e.subsets operation true error := by
      obtain ⟨success, e', hexec, hgrowth, hsplits, hsuccess⟩ :=
        job.returnSide_spec hevery hkind false d'
      obtain ⟨error, e, hexec', hgrowth', hsplits', herror⟩ :=
        job.returnSide_spec hevery hkind true e'
      use success, error, e
      rw [exec_bind_of_ok hexec, exec_bind_of_ok hexec']
      use rfl, hgrowth.trans hgrowth', hsplits'.trans hsplits, hgrowth'.later.isSide hsuccess
    constructor
    · apply exec_bind_rel Relation.ReflTransGen.trans
        ((job.placeOfContainer_steady container).grows d)
      intro _ d' _
      obtain ⟨success, error, e, hexec, hgrowth, -⟩ := hrest d'
      rw [hexec]
      apply hgrowth
    · intro split e h
      obtain ⟨_, d', hplace, h⟩ := exec_bind_eq_ok.mp h
      obtain ⟨success, error, e', hexec, -, hsplits, hsuccess, herror⟩ := hrest d'
      rw [hexec] at h
      cases h
      obtain ⟨modules, places, hkeeps⟩ := job.placeOfContainer_keeps container d
      rw [hplace] at hkeeps
      obtain rfl : d' = _ := hkeeps
      use hsplits, operation, hoperation, rfl, hsuccess
  · have hkind : ∀ union, job.graph.kind? operation.returnType ≠ some (.union union) :=
      fun union hunion' => hunion ⟨union, hunion'⟩
    rw [job.makeSplit_plain container hkind]
    split
    case isTrue herror =>
      use .refl
      intro split e h
      cases h
      use rfl, operation, hoperation, rfl, .absent hkind (by simp [herror])
      apply IsSide.plain hkind herror
    case isFalse herror =>
      use .refl
      intro split e h
      cases h
      use rfl, operation, hoperation, rfl, .plain hkind (by simpa using herror)
      apply IsSide.absent hkind herror

/-- A subset that gets a name is queued, and nothing else changes. -/
theorem returnSide_keeps (id : TypeId) (union : UnionType) (variants : List Nat) (name : String)
    (d : Draft) :
  ∃ subsets synthetics names, (exec (returnSide id union variants name) d).2
    = { d with subsets := subsets, synthetics := synthetics, syntheticNames := names }
  := by
  unfold returnSide
  split
  case h_1 => exact ⟨d.subsets, d.synthetics, d.syntheticNames, rfl⟩
  case h_2 => split <;> exact ⟨d.subsets, d.synthetics, d.syntheticNames, rfl⟩
  case h_3 =>
    split
    case isTrue => exact ⟨d.subsets, d.synthetics, d.syntheticNames, rfl⟩
    case isFalse =>
      rw [subsetName, exec_bind, exec_get_bind]
      cases d.subsets.lookup (id, name) with
      | some known => exact ⟨d.subsets, d.synthetics, d.syntheticNames, rfl⟩
      | none => exact ⟨_, _, _, rfl⟩

theorem returnSide_sameRecords (id : TypeId) (union : UnionType) (variants : List Nat)
    (name : String) (d : Draft) :
  SameRecords d (exec (returnSide id union variants name) d).2
  := by
  obtain ⟨subsets, synthetics, names, hkeeps⟩ := returnSide_keeps id union variants name d
  rw [hkeeps]
  exact ⟨rfl, rfl⟩

/-- Making a split reports nothing and records nothing yet. -/
theorem makeSplit_sameRecords (container : Container) (operation : Operation) (d : Draft) :
  SameRecords d (exec (job.makeSplit container operation) d).2
  := by
  unfold makeSplit
  dsimp only
  split
  case h_1 union _ =>
    have hplace : SameRecords d (exec (job.placeOfContainer container) d).2 := by
      obtain ⟨modules, places, hkeeps⟩ := job.placeOfContainer_keeps container d
      rw [hkeeps]
      exact ⟨rfl, rfl⟩
    apply exec_bind_rel @SameRecords.trans hplace
    intro _ d₁ _
    apply exec_bind_rel @SameRecords.trans (returnSide_sameRecords _ _ _ _ d₁)
    intro success d₂ _
    apply exec_bind_rel @SameRecords.trans (returnSide_sameRecords _ _ _ _ d₂)
    intro error d₃ _
    exact ⟨rfl, rfl⟩
  case h_2 => split <;> exact ⟨rfl, rfl⟩

/-- A split is known once it was made. -/
theorem splitReturn_eq_ok {container : Container} {operation : Operation} {d e : Draft}
    {split : ReturnSplit} (h : exec (job.splitReturn container operation) d = (.ok split, e)) :
  e.splits.lookup ⟨container, operation.name⟩ = some split
  := by
  rw [splitReturn, exec_get_bind] at h
  split at h
  case h_1 hknown =>
    cases h
    apply hknown
  case h_2 =>
    obtain ⟨made, d', -, h⟩ := exec_bind_eq_ok.mp h
    cases h
    apply List.lookup_cons_self

/-- A split that is known is settled. -/
theorem splitReturn_settled {container : Container} {operation : Operation} {d : Draft}
    {split : ReturnSplit} (h : d.splits.lookup ⟨container, operation.name⟩ = some split) :
  Settled (job.splitReturn container operation) d split
  := by
  apply Settled.of_unchanged
  intro e he
  rw [splitReturn, exec_get_bind, he.split _ _ h]
  rfl

/-- The split of an operation is made once. -/
theorem splitReturn_steady {container : Container} {operation : Operation}
    (hoperation : operation ∈ job.graph.operations container) :
  Steady job.graph (job.splitReturn container operation)
  := by
  refine ⟨⟨?_, ?_⟩, ?_⟩
  · intro d
    rw [splitReturn, exec_get_bind]
    split
    case h_1 => apply Relation.ReflTransGen.refl
    case h_2 hnew =>
      obtain ⟨hgrowth, hsplit⟩ := job.makeSplit_spec hoperation d
      apply exec_bind_rel Relation.ReflTransGen.trans hgrowth
      intro split e hexec
      obtain ⟨hsplits, hsplit⟩ := hsplit split e hexec
      rw [← hsplits] at hnew
      apply Relation.ReflTransGen.single (Change.split e hnew hsplit)
  · intro d split e _ h
    apply job.splitReturn_settled (job.splitReturn_eq_ok h)
  · intro d
    rw [splitReturn, exec_get_bind]
    split
    case h_1 => apply Reports.of_same rfl
    case h_2 =>
      apply exec_bind_rel (@Reports.trans spellingKinds)
        (Reports.of_same (job.makeSplit_sameRecords _ _ d).diagnostics)
      intro split e _
      apply Reports.of_same rfl

end Job

end ServiceBindings
