import ServiceBindings.Draft.Declaration

/-!
# Completing a draft

Writing a declaration names others, which have to be written as well. A draft is complete when no
declaration and no synthetic declaration waits any more.
-/

namespace ServiceBindings

/-- The number of operations that a graph declares. -/
def TypeGraph.operationCount (graph : TypeGraph) : Nat :=
  (graph.namespaces.flatMap (·.operations)).length
    + (graph.typeIds.flatMap fun id => graph.operations (.interface id)).length

namespace Job

/-- How many declarations are written at most until a draft is complete. Each type and each
namespace is written once under its own name, each type without a name once, and each operation
gives rise to two subsets; what waits already comes on top. -/
def completionBound (job : Job) (draft : Draft) : Nat :=
  draft.declarations.pending.length + draft.synthetics.length
    + 2 * job.graph.types.length + job.graph.namespaces.length + 2 * job.graph.operationCount + 1

/-- Writes what waits, at most `limit` declarations; named declarations come first. -/
def completeWithin (job : Job) : Nat → Drafting Unit
  | 0 => pure ()
  | limit + 1 => do
    let draft ← get
    match draft.declarations.take? with
    | some (declaration, rest) =>
      set { draft with declarations := rest }
      job.writeDeclaration declaration
      completeWithin job limit
    | none =>
      match draft.synthetics with
      | [] => pure ()
      | synthetic :: rest =>
        set { draft with synthetics := rest }
        job.writeSynthetic synthetic
        completeWithin job limit

/-- Writes what waits until nothing does. -/
def complete (job : Job) : Drafting Unit := do
  job.completeWithin (job.completionBound (← get))

end Job

end ServiceBindings
