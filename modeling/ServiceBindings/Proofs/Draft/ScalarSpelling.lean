import ServiceBindings.Draft.Reference
import ServiceBindings.Proofs.Chain
import ServiceBindings.Proofs.Draft.Execution
import ServiceBindings.Proofs.Schema.Containment

/-!
# Spellings of scalars

A scalar is spelled like the first type in the table of scalars on the chain of the types that it
refines.  The chain is looked at for one more type than there are, which is enough for the longest
one and ends every circle.  If no type on the chain is in the table, the scalar is reported once.
-/

namespace ServiceBindings

open Drafting

namespace TypeGraph

/-- The type that a scalar refines. -/
def base? (graph : TypeGraph) (id : TypeId) : Option TypeId :=
  match graph.kind? id with
  | some (.scalar scalar) => scalar.base
  | _ => none

/-- A type that refines another one exists. -/
theorem mem_typeIds_of_base? {graph : TypeGraph} {id base : TypeId}
    (h : graph.base? id = some base) :
  id ∈ graph.typeIds
  := by
  rw [base?] at h
  split at h
  case h_1 scalar hkind =>
    obtain ⟨node, hnode, -⟩ := Option.map_eq_some_iff.mp hkind
    apply mem_typeIds.mpr (List.getElem?_eq_some_iff.mp hnode).1
  case h_2 => cases h

end TypeGraph

namespace ScalarTable

variable {table : ScalarTable} {graph : TypeGraph} {id : TypeId} {spelling : ScalarSpelling}

/-- Whether a type is in the table. -/
abbrev Lists (table : ScalarTable) (id : TypeId) : Prop :=
  table.get? id ≠ none

theorem findOnChain_succ (limit : Nat) :
  table.findOnChain graph (limit + 1) id
    = (table.get? id).or ((graph.base? id).bind (table.findOnChain graph limit))
  := by
  rw [findOnChain, TypeGraph.base?]
  cases table.get? id with
  | some spelling => rfl
  | none =>
      rcases graph.kind? id with _ | kind
      · rfl
      · cases kind <;> rfl

/-- What is found on a chain within a limit is the spelling of the first type in the table, if fewer
steps than the limit lead there. -/
theorem findOnChain_eq_some {limit : Nat} :
  table.findOnChain graph limit id = some spelling
    ↔ ∃ steps < limit, ∃ target, Chain.First graph.base? table.Lists id steps target
      ∧ table.get? target = some spelling
  := by
  induction limit generalizing id with
  | zero => simp [findOnChain]
  | succ limit ih =>
      rw [findOnChain_succ, Option.or_eq_some_iff]
      constructor
      · rintro (hlisted | ⟨hnone, hrest⟩)
        · refine ⟨0, Nat.zero_lt_succ _, id, Chain.first_zero.mpr ⟨rfl, ?_⟩, hlisted⟩
          simp [Lists, hlisted]
        · obtain ⟨base, hbase, hrest⟩ := Option.bind_eq_some_iff.mp hrest
          obtain ⟨steps, hlt, target, hfirst, htarget⟩ := ih.mp hrest
          exact ⟨steps + 1, Nat.succ_lt_succ hlt, target,
            Chain.first_succ.mpr ⟨not_not.mpr hnone, base, hbase, hfirst⟩, htarget⟩
      · rintro ⟨steps, hlt, target, hfirst, htarget⟩
        cases steps with
        | zero =>
            obtain ⟨rfl, -⟩ := Chain.first_zero.mp hfirst
            apply Or.inl htarget
        | succ steps =>
            obtain ⟨hnone, base, hbase, hfirst⟩ := Chain.first_succ.mp hfirst
            refine Or.inr ⟨not_not.mp hnone, Option.bind_eq_some_iff.mpr ⟨base, hbase, ?_⟩⟩
            apply ih.mpr ⟨steps, Nat.lt_of_succ_lt_succ hlt, target, hfirst, htarget⟩

/-- The spelling of a scalar is that of the first type in the table on its chain, however long. -/
theorem spelling?_eq_some :
  table.spelling? graph id = some spelling
    ↔ ∃ steps target, Chain.First graph.base? table.Lists id steps target
      ∧ table.get? target = some spelling
  := by
  rw [spelling?, findOnChain_eq_some]
  constructor
  · rintro ⟨steps, -, target, hfirst, htarget⟩
    exact ⟨steps, target, hfirst, htarget⟩
  · rintro ⟨steps, target, hfirst, htarget⟩
    have hle := hfirst.steps_le fun _ _ _ hbase => TypeGraph.mem_typeIds_of_base? hbase
    rw [TypeGraph.typeIds, List.length_map, List.length_range] at hle
    exact ⟨steps, Nat.lt_succ_of_le hle, target, hfirst, htarget⟩

end ScalarTable

namespace Job

/-- A scalar is spelled like the first type on its chain that is in the table, and nothing is
reported.  If no type on the chain is in the table, the scalar is spelled as the unit, and the only
thing that changes is that it is reported once. -/
theorem spellScalar_exact (job : Job) (id : TypeId) (span : Option Span) (use : TypeUse)
    (d : Draft) :
  (∀ steps target spelling, Chain.First job.graph.base? job.scalars.Lists id steps target →
      job.scalars.get? target = some spelling →
      exec (job.spellScalar id span use) d = (.ok (spelling.forUse use), d))
    ∧ ((∀ steps target, Chain.follow job.graph.base? id steps = some target →
        job.scalars.get? target = none) →
      exec (job.spellScalar id span use) d
        = (.ok "()", { d with
            diagnostics := d.diagnostics ++ [Diagnostic.make .unrecognizedScalar
              (span <|> (job.graph.type? id).bind (·.span)) (some (job.graph.displayName id)) []] }))
  := by
  constructor
  · intro steps target spelling hfirst htarget
    have hspelling := ScalarTable.spelling?_eq_some.mpr ⟨steps, target, hfirst, htarget⟩
    rw [spellScalar, hspelling]
    rfl
  · intro hnone
    have hspelling : job.scalars.spelling? job.graph id = none := by
      rw [Option.eq_none_iff_forall_ne_some]
      intro spelling hspelling
      obtain ⟨steps, target, hfirst, -⟩ := ScalarTable.spelling?_eq_some.mp hspelling
      apply hfirst.holds (hnone steps target hfirst.reached)
    rw [spellScalar, hspelling]
    rfl

/-- A chain that visits every type and ends at a standard scalar. -/
def petIdGraph : TypeGraph := {
  namespaces := [{ name := "" }, { name := "TypeSpec", parent := some .global }]
  types := [
    { kind := .scalar { name := "petId", owner := .global, base := some ⟨1⟩ } },
    { kind := .scalar { name := "code", owner := .global, base := some ⟨2⟩ } },
    { kind := .scalar { name := "string", owner := ⟨1⟩ } }] }

/-- Two scalars that refine each other, and one that refines an array. -/
def oddScalarGraph : TypeGraph := {
  namespaces := [{ name := "" }]
  types := [
    { kind := .scalar { name := "egg", owner := .global, base := some ⟨1⟩ } },
    { kind := .scalar { name := "hen", owner := .global, base := some ⟨0⟩ } },
    { kind := .array ⟨0⟩ },
    { kind := .scalar { name := "nest", owner := .global, base := some ⟨2⟩ } }] }

/-- The job of a graph. -/
def scalarJob (graph : TypeGraph) : Job :=
  { graph := graph, service := { root := .global }, config := {} }

/-- The standard scalar at the end of the longest chain is found.  A circle and a chain that comes
to an array are reported. -/
theorem spellScalar_exact_petId :
  exec ((scalarJob petIdGraph).spellScalar ⟨0⟩ none .borrowed) .start = (.ok "&str", .start)
    ∧ exec ((scalarJob oddScalarGraph).spellScalar ⟨0⟩ none .owned) .start
      = (.ok "()", { Draft.start with
          diagnostics := [Diagnostic.make .unrecognizedScalar none (some "egg") []] })
    ∧ exec ((scalarJob oddScalarGraph).spellScalar ⟨3⟩ none .owned) .start
      = (.ok "()", { Draft.start with
          diagnostics := [Diagnostic.make .unrecognizedScalar none (some "nest") []] })
  := by
  have hnone (id : TypeId) : (scalarJob oddScalarGraph).scalars.get? id = none := by
    have hentries : (scalarJob oddScalarGraph).scalars.entries = [] := by decide +kernel
    rw [ScalarTable.get?, hentries]
    rfl
  refine ⟨?_, ?_, ?_⟩
  · have hfirst : Chain.First petIdGraph.base? (scalarJob petIdGraph).scalars.Lists ⟨0⟩ 2 ⟨2⟩ := by
      refine Chain.first_succ.mpr ⟨by decide +kernel, ⟨1⟩, rfl, ?_⟩
      refine Chain.first_succ.mpr ⟨by decide +kernel, ⟨2⟩, rfl, ?_⟩
      exact Chain.first_zero.mpr ⟨rfl, by decide +kernel⟩
    apply (spellScalar_exact _ _ _ _ _).1 2 ⟨2⟩ .text hfirst
    decide +kernel
  · apply (spellScalar_exact (scalarJob oddScalarGraph) ⟨0⟩ none .owned .start).2
    intro _ target _
    apply hnone
  · apply (spellScalar_exact (scalarJob oddScalarGraph) ⟨3⟩ none .owned .start).2
    intro _ target _
    apply hnone

end Job

end ServiceBindings
