import ServiceBindings.Schema.Graph

/-!
# Containment

A record whose field contains the record itself has no finite size unless the field is boxed. For
every member of a record or a union the types it contains are searched breadth first; the member is
recursive when the search meets the declaration it belongs to.
-/

namespace ServiceBindings.TypeGraph

/-- The types that values of the type at a position contain. -/
def parts (graph : TypeGraph) (id : TypeId) : List TypeId :=
  ((graph.kind? id).map (·.parts)).getD []

/-- Whether `target` is in the queue or contained in a type of the queue, going only through types
that are still unseen. -/
def search (graph : TypeGraph) (target : TypeId) (queue unseen : List TypeId) : Bool :=
  match queue with
  | [] => false
  | id :: queue =>
    if id = target then true
    else if id ∈ unseen then search graph target (queue ++ graph.parts id) (unseen.erase id)
    else search graph target queue unseen
termination_by (unseen.length, queue.length)
decreasing_by
  · apply Prod.Lex.left
    have positive := List.length_pos_of_mem ‹id ∈ unseen›
    rw [List.length_erase_of_mem ‹id ∈ unseen›]
    omega
  · apply Prod.Lex.right
    simp

/-- Whether a type is `target` or contains it. -/
def reaches (graph : TypeGraph) (start target : TypeId) : Bool :=
  graph.search target [start] graph.typeIds

/-- The names of the fields that lead back to their record, each once. -/
def recursiveFields (graph : TypeGraph) (id : TypeId) : List String :=
  match graph.kind? id with
  | some (.record record) =>
    ((record.fields.filter fun field => graph.reaches field.type id).map (·.name)).eraseDups
  | _ => []

/-- The positions of the variants that lead back to their union. -/
def recursiveVariants (graph : TypeGraph) (id : TypeId) : List Nat :=
  match graph.kind? id with
  | some (.union union) =>
    (union.variants.zipIdx.filter fun (variant, _) => graph.reaches variant.type id).map (·.2)
  | _ => []

end ServiceBindings.TypeGraph
