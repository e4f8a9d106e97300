import Mathlib.Data.List.Dedup
import ServiceBindings.Proofs.Draft.Allowing

/-!
# How many subsets are named

Subsets of unions are only named while the split of an operation is made, at most one for each of
its two sides, and a split is made once for each container and name of operations.  So there are at
most two subsets for each such pair, also if operations of a container share a name.
-/

namespace ServiceBindings

open Draft

/-! ### Operations by container and name -/

namespace TypeGraph

/-- What may declare operations: each namespace, and each type. -/
def containers (graph : TypeGraph) : List Container :=
  graph.namespaceIds.map .group ++ graph.typeIds.map .interface

/-- The operations of a graph by container and name. -/
def operationRefs (graph : TypeGraph) : List OperationRef :=
  graph.containers.flatMap fun container =>
    (graph.operations container).map fun operation => ⟨container, operation.name⟩

theorem mem_operationRefs {graph : TypeGraph} {container : Container} {operation : Operation}
    (h : operation ∈ graph.operations container) :
  ⟨container, operation.name⟩ ∈ graph.operationRefs
  := by
  have hdeclares := declares_container h
  have hcontainer : container ∈ graph.containers := by
    rw [containers, List.mem_append]
    cases container with
    | group id =>
        left
        apply List.mem_map_of_mem
        apply List.mem_map.mpr ⟨id.index, List.mem_range.mpr hdeclares, rfl⟩
    | interface id =>
        right
        apply List.mem_map_of_mem
        apply List.mem_map.mpr ⟨id.index, List.mem_range.mpr hdeclares, rfl⟩
  apply List.mem_flatMap.mpr ⟨container, hcontainer, List.mem_map_of_mem h⟩

end TypeGraph

/-! ### Tallies -/

namespace Draft

/-- Whether there are at most two subsets for each split, and one split at most for each container
and name of operations. -/
structure Tallied (graph : TypeGraph) (d : Draft) : Prop where
  subsets_le : d.subsets.length ≤ 2 * d.splits.length
  splits_nodup : (d.splits.map (·.1)).Nodup
  splits_known : ∀ entry ∈ d.splits, entry.1 ∈ graph.operationRefs

/-- Whether two drafts have the same subsets and the same splits. -/
structure SameSubsets (d e : Draft) : Prop where
  subsets : e.subsets = d.subsets
  splits : e.splits = d.splits

variable {graph : TypeGraph} {d e : Draft}

/-- There are at most two subsets for each container and name of operations. -/
theorem Tallied.subsets_length_le (h : Tallied graph d) :
  d.subsets.length ≤ 2 * graph.operationRefs.dedup.length
  := by
  have hsubset : d.splits.map (·.1) ⊆ graph.operationRefs.dedup := by
    intro reference hreference
    obtain ⟨entry, hentry, rfl⟩ := List.mem_map.mp hreference
    apply List.mem_dedup.mpr (h.splits_known entry hentry)
  have hlength := (h.splits_nodup.subperm hsubset).length_le
  rw [List.length_map] at hlength
  apply Nat.le_trans h.subsets_le (Nat.mul_le_mul_left 2 hlength)

theorem SameSubsets.tallied (h : SameSubsets d e) (hd : Tallied graph d) : Tallied graph e := by
  obtain ⟨hsubsets, hsplits⟩ := h
  constructor
  · rw [hsubsets, hsplits]
    apply hd.subsets_le
  · rw [hsplits]
    apply hd.splits_nodup
  · rw [hsplits]
    apply hd.splits_known

theorem tallied_start (graph : TypeGraph) : Tallied graph .start where
  subsets_le := Nat.le_refl _
  splits_nodup := List.nodup_nil
  splits_known _ h := nomatch h

end Draft

namespace Drafting

variable {α : Type}

theorem composes_sameSubsets : Composes SameSubsets where
  refl _ := ⟨rfl, rfl⟩
  trans hcd hde := ⟨hde.subsets.trans hcd.subsets, hde.splits.trans hcd.splits⟩

/-- Tallies go on from draft to draft. -/
theorem composes_tallied (graph : TypeGraph) :
  Composes fun d e => Tallied graph d → Tallied graph e where
  refl _ h := h
  trans hcd hde h := hde (hcd h)

theorem Stays.tallied {x : Drafting α} (h : Stays SameSubsets x) (graph : TypeGraph) :
  Stays (fun d e => Tallied graph d → Tallied graph e) x :=
  fun d => (h d).tallied

theorem request_sameSubsets (declaration : DeclarationRef) :
  Stays SameSubsets (request declaration) :=
  fun _ => ⟨rfl, rfl⟩

theorem addModule_sameSubsets (parent : ModuleId) (name : String) (inline : Bool) (doc : String) :
  Stays SameSubsets (addModule parent name inline doc) :=
  fun _ => ⟨rfl, rfl⟩

end Drafting

namespace Job

open Drafting

variable (job : Job)

/-! ### Steps that make no split -/

theorem placeOfContainer_sameSubsets (container : Container) :
  Stays SameSubsets (job.placeOfContainer container)
  := by
  intro d
  obtain ⟨modules, places, hkeeps⟩ := job.placeOfContainer_keeps container d
  rw [hkeeps]
  exact ⟨rfl, rfl⟩

theorem place_sameSubsets (id : NamespaceId) : Stays SameSubsets (job.place id) :=
  job.placeOfContainer_sameSubsets (.group id)

/-- Only splits name subsets. -/
theorem allows_sameSubsets : job.Allows SameSubsets where
  toComposes := composes_sameSubsets
  report _ _ := ⟨rfl, rfl⟩
  request := request_sameSubsets
  place := job.place_sameSubsets
  anonymousName _ preferred d := by
    rw [anonymousName, exec_get_bind]
    split
    case h_1 => exact ⟨rfl, rfl⟩
    case h_2 => split <;> exact ⟨rfl, rfl⟩
  mark _ _ := ⟨rfl, rfl⟩
  write _ _ _ := ⟨rfl, rfl⟩

/-- Writing a synthetic declaration names no subsets. -/
theorem writeSynthetic_sameSubsets (synthetic : Synthetic) :
  Stays SameSubsets (job.writeSynthetic synthetic) :=
  job.allows_sameSubsets.writeSynthetic synthetic

/-! ### Splits -/

/-- A side of a union is found without failure, and at most one subset is named for it. -/
theorem returnSide_subsets (id : TypeId) (union : UnionType) (variants : List Nat) (name : String)
    (d : Draft) :
  ∃ side e, exec (returnSide id union variants name) d = (.ok side, e)
    ∧ e.subsets.length ≤ d.subsets.length + 1
  := by
  unfold returnSide
  split
  case h_1 => exact ⟨_, d, rfl, Nat.le_succ _⟩
  case h_2 => split <;> exact ⟨_, d, rfl, Nat.le_succ _⟩
  case h_3 =>
    split
    case isTrue => exact ⟨_, d, rfl, Nat.le_succ _⟩
    case isFalse =>
      rw [subsetName, exec_bind, exec_get_bind]
      cases d.subsets.lookup (id, name) with
      | some known => exact ⟨_, d, rfl, Nat.le_succ _⟩
      | none => exact ⟨_, _, rfl, Nat.le_refl _⟩

/-- At most two subsets are named for a split, and none if it cannot be made. -/
theorem makeSplit_subsets {container : Container} {operation : Operation} {d e : Draft}
    {outcome : Except CompileError ReturnSplit}
    (h : exec (job.makeSplit container operation) d = (outcome, e)) :
  (∃ split, outcome = .ok split ∧ e.subsets.length ≤ d.subsets.length + 2)
    ∨ ∃ error, outcome = .error error ∧ SameSubsets d e
  := by
  by_cases hunion : ∃ union, job.graph.kind? operation.returnType = some (.union union)
  · obtain ⟨union, hkind⟩ := hunion
    rw [job.makeSplit_union container hkind, exec_bind] at h
    have hplace := job.placeOfContainer_sameSubsets container d
    rcases hexec : exec (job.placeOfContainer container) d with ⟨place, d₁⟩
    rw [hexec] at h hplace
    cases place with
    | error error =>
        right
        cases h
        use error
    | ok m =>
        left
        obtain ⟨success, d₂, hsuccess, hfirst⟩ := returnSide_subsets operation.returnType union
          (union.side job.graph false) (operation.sideName job.graph false) d₁
        obtain ⟨error, d₃, herror, hsecond⟩ := returnSide_subsets operation.returnType union
          (union.side job.graph true) (operation.sideName job.graph true) d₂
        simp only [exec_bind_of_ok hsuccess, exec_bind_of_ok herror] at h
        cases h
        use ⟨success, error⟩, rfl
        rw [hplace.subsets] at hfirst
        omega
  · left
    rw [job.makeSplit_plain container fun union hkind => hunion ⟨union, hkind⟩] at h
    split at h <;> cases h <;> exact ⟨_, rfl, Nat.le_add_right _ _⟩

/-- A split is tallied when it is made. -/
theorem splitReturn_tallied {container : Container} {operation : Operation}
    (hoperation : operation ∈ job.graph.operations container) :
  Stays (fun d e => Tallied job.graph d → Tallied job.graph e)
    (job.splitReturn container operation)
  := by
  intro d hd
  rw [splitReturn, exec_get_bind]
  split
  case h_1 => apply hd
  case h_2 hnew =>
    have hsame := job.makeSplit_sameRecords container operation d
    rw [exec_bind]
    rcases hexec : exec (job.makeSplit container operation) d with ⟨outcome, e⟩
    rw [hexec] at hsame
    rcases job.makeSplit_subsets hexec with ⟨split, rfl, hsubsets⟩ | ⟨error, rfl, hkept⟩
    · have hle := hd.subsets_le
      constructor
      · change e.subsets.length ≤ 2 * (e.splits.length + 1)
        rw [hsame.splits]
        omega
      · change ((⟨container, operation.name⟩ : OperationRef) :: e.splits.map (·.1)).Nodup
        rw [hsame.splits]
        apply List.nodup_cons.mpr ⟨not_mem_keys_of_lookup hnew, hd.splits_nodup⟩
      · intro entry hentry
        rcases List.mem_cons.mp hentry with rfl | hentry
        · apply TypeGraph.mem_operationRefs hoperation
        · rw [hsame.splits] at hentry
          apply hd.splits_known entry hentry
    · apply hkept.tallied hd

/-! ### Steps that make splits -/

theorem allowsSplits_tallied :
  job.AllowsSplits fun d e => Tallied job.graph d → Tallied job.graph e where
  toComposes := composes_tallied job.graph
  report h := (job.allows_sameSubsets.report h).tallied _
  request declaration := (request_sameSubsets declaration).tallied _
  place id := (job.place_sameSubsets id).tallied _
  anonymousName hid preferred := (job.allows_sameSubsets.anonymousName hid preferred).tallied _
  mark d key := (job.allows_sameSubsets.mark d key).tallied
  write m lines := (job.allows_sameSubsets.write m lines).tallied _
  splitReturn := job.splitReturn_tallied

/-- Writing a declaration keeps the tallies. -/
theorem writeDeclaration_tallied (declaration : DeclarationRef) :
  Stays (fun d e => Tallied job.graph d → Tallied job.graph e) (job.writeDeclaration declaration) :=
  job.allowsSplits_tallied.writeDeclaration declaration

theorem allowsModules_tallied :
  job.AllowsModules fun d e => Tallied job.graph d → Tallied job.graph e where
  toAllows := job.allowsSplits_tallied.toAllows
  addModule parent name inline doc := (addModule_sameSubsets parent name inline doc).tallied _

/-- Writing the HTTP surface keeps the tallies. -/
theorem writeSurface_tallied (http : HttpService) :
  Stays (fun d e => Tallied job.graph d → Tallied job.graph e) (job.writeSurface http)
  := by
  have hreport (diagnostic : Diagnostic) : Stays SameSubsets (report diagnostic) :=
    fun _ => ⟨rfl, rfl⟩
  have hsplit (endpoint : Endpoint) (h : endpoint ∈ (Endpoint.collect job.graph http).1) :=
    job.splitReturn_tallied (TypeGraph.operation?_eq_some (Endpoint.operation_mem h).2).1
  apply job.allowsModules_tallied.writeSurface http hsplit
  intro host path operations backend endpoint hendpoint
  apply job.allowsModules_tallied.serveMethod (fun diagnostic => (hreport diagnostic).tallied _) _ _
    _ _ (hsplit endpoint hendpoint)

end Job

end ServiceBindings
