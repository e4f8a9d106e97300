import ServiceBindings.Proofs.Draft.Mention
import ServiceBindings.Proofs.Schema.Containment

/-!
# Traversals that come to an end

Namespaces are visited from a root down to their children, and arrays and maps are looked through
down to the type in the middle.  The two traversals are stated here without a limit on how deep they
go.  A root below the global namespace is not below itself, so the depth of the namespaces below it
is less than their number.  If no array or map contains itself by arrays and maps alone, those that
are looked through are all different.  So the limits that the traversals work with are never met.
-/

namespace ServiceBindings

namespace TypeGraph

open Relation

variable (graph : TypeGraph)

/-! ### Namespaces -/

/-- The namespaces met on a visit of several namespaces, each of them followed by those met on the
visit of its children. -/
inductive Visits : List NamespaceId → List NamespaceId → Prop where
  | nil : Visits [] []
  | cons {id : NamespaceId} {rest below after : List NamespaceId} :
      Visits (graph.childrenOf id) below → Visits rest after →
      Visits (id :: rest) (id :: below ++ after)

variable {graph} {id root : NamespaceId}

/-- A visit meets the same namespaces every time. -/
theorem Visits.unique {ids met met' : List NamespaceId} (h : graph.Visits ids met)
    (h' : graph.Visits ids met') :
  met = met'
  := by
  induction h generalizing met' with
  | nil =>
      cases h'
      rfl
  | cons _ _ ihbelow ihafter =>
      cases h' with
      | cons hbelow hafter => rw [ihbelow hbelow, ihafter hafter]

/-- A namespace below the global one is not below itself. -/
theorem ancestor?_ne_self (hglobal : graph.parent? .global = none)
    (h : graph.Descends .global id) (steps : Nat) :
  graph.ancestor? id (steps + 1) ≠ some id
  := by
  induction h generalizing steps with
  | root =>
      rw [Nat.add_comm, ancestor?_add, ancestor?, ancestor?, Option.bind_some, hglobal]
      rintro ⟨⟩
  | @child id parent hparent _ ih =>
      -- What comes back to the namespace comes back to its parent.
      intro heq
      apply ih steps
      rw [Nat.add_comm, ancestor?_add, ancestor?, ancestor?, Option.bind_some, hparent] at heq
      rw [ancestor?, Option.bind_eq_some_iff]
      use id, heq

section Linked

variable (hlinked : graph.Linked)

include hlinked

/-- Below a namespace that is not below itself, nothing is as deep as there are namespaces. -/
theorem ancestor?_ne_of_length (hroot : ∀ steps, graph.ancestor? root (steps + 1) ≠ some root)
    (hlength : graph.namespaces.length ≠ 0) (id : NamespaceId) :
  graph.ancestor? id graph.namespaces.length ≠ some root
  := by
  intro hlong
  have hexists : root.index < graph.namespaces.length := by
    obtain ⟨limit, hlimit⟩ := Nat.exists_eq_add_one_of_ne_zero hlength
    rw [hlimit, ancestor?] at hlong
    obtain ⟨child, -, hparent⟩ := Option.bind_eq_some_iff.mp hlong
    apply parent_lt hlinked hparent
  -- The root is met before, so the steps after that lead from it back to it.
  obtain ⟨steps, hlt, hsteps⟩ :=
    Descends.exists_steps (descends_iff_ancestor?.mpr ⟨_, hlong⟩) hexists
  obtain ⟨more, hmore⟩ := Nat.exists_eq_add_of_lt hlt
  rw [hmore, Nat.add_assoc, ancestor?_add, hsteps, Option.bind_some] at hlong
  apply hroot more hlong

/-- The subtrees of namespaces are what a visit of them meets, if nothing is as deep as the
limit. -/
theorem visits_subtreeWithin {depth : Nat} {ids : List NamespaceId}
    (h : ∀ id ∈ ids, ∀ below, graph.ancestor? below depth ≠ some id) :
  graph.Visits ids (ids.flatMap (graph.subtreeWithin depth))
  := by
  induction depth generalizing ids with
  | zero =>
      cases ids with
      | nil => apply Visits.nil
      | cons id ids => apply absurd rfl (h id List.mem_cons_self id)
  | succ depth ih =>
      induction ids with
      | nil => apply Visits.nil
      | cons id ids ihids =>
          have hchildren : graph.Visits (graph.childrenOf id)
              ((graph.childrenOf id).flatMap (graph.subtreeWithin depth)) := by
            apply ih
            intro child hchild below hbelow
            apply h id List.mem_cons_self below
            rw [ancestor?, hbelow, Option.bind_some]
            apply (hlinked.mem_children id child).mp hchild
          apply Visits.cons hchildren
          apply ihids
          intro other hother
          apply h other (List.mem_cons_of_mem _ hother)

/-- The subtree of a namespace below the global one is what a visit of it meets. -/
theorem visits_subtree (hlength : graph.namespaces.length ≠ 0)
    (hglobal : graph.parent? .global = none) (hroot : graph.Descends .global root) :
  graph.Visits [root] (graph.subtree root)
  := by
  have hvisits : graph.Visits [root]
      ([root].flatMap (graph.subtreeWithin graph.namespaces.length)) := by
    apply visits_subtreeWithin hlinked
    intro id hid
    rw [List.mem_singleton.mp hid]
    apply ancestor?_ne_of_length hlinked (ancestor?_ne_self hglobal hroot) hlength
  rw [List.flatMap_singleton] at hvisits
  apply hvisits

end Linked

/-! ### Arrays and maps -/

variable (graph)

/-- The arrays and maps that a type consists of, from the outermost one, and the type in the
middle. -/
inductive Unwraps : TypeId → List Wrapper → TypeId → Prop where
  | core {id : TypeId} : (∀ part, ¬graph.IsElement id part) → Unwraps id [] id
  | array {id part core : TypeId} {wrappers : List Wrapper} :
      graph.kind? id = some (.array part) → Unwraps part wrappers core →
      Unwraps id (.array :: wrappers) core
  | map {id part core : TypeId} {wrappers : List Wrapper} :
      graph.kind? id = some (.map part) → Unwraps part wrappers core →
      Unwraps id (.map :: wrappers) core

variable {graph}

/-- What is found within a limit is what the type consists of. -/
theorem unwraps_of_unwrapWithin {limit : Nat} {id core : TypeId} {wrappers : List Wrapper}
    (h : graph.unwrapWithin limit id = some (wrappers, core)) :
  graph.Unwraps id wrappers core
  := by
  induction limit generalizing id wrappers with
  | zero => cases h
  | succ limit ih =>
      rw [unwrapWithin] at h
      split at h
      case h_1 element helement =>
        obtain ⟨⟨rest, core'⟩, hrest, heq⟩ := Option.map_eq_some_iff.mp h
        cases heq
        apply Unwraps.array helement (ih hrest)
      case h_2 value hvalue =>
        obtain ⟨⟨rest, core'⟩, hrest, heq⟩ := Option.map_eq_some_iff.mp h
        cases heq
        apply Unwraps.map hvalue (ih hrest)
      case h_3 harray hmap =>
        cases h
        apply Unwraps.core
        rintro part (hpart | hpart)
        · apply harray part hpart
        · apply hmap part hpart

/-- If nothing is found within a limit, as many arrays and maps are looked through, each of them
part of those before it. -/
theorem exists_elements_of_unwrapWithin {limit : Nat} {id : TypeId}
    (h : graph.unwrapWithin limit id = none) :
  ∃ ids : List TypeId, ids.length = limit ∧ ids.Pairwise (TransGen graph.IsElement)
    ∧ ∀ inner ∈ ids, ReflTransGen graph.IsElement id inner ∧ ∃ part, graph.IsElement inner part
  := by
  induction limit generalizing id with
  | zero => exact ⟨[], rfl, .nil, fun _ h => nomatch h⟩
  | succ limit ih =>
      have hnext {part : TypeId} (hpart : graph.IsElement id part)
          (hrest : graph.unwrapWithin limit part = none) :
          ∃ ids : List TypeId, ids.length = limit + 1 ∧ ids.Pairwise (TransGen graph.IsElement)
            ∧ ∀ inner ∈ ids,
              ReflTransGen graph.IsElement id inner ∧ ∃ part, graph.IsElement inner part := by
        obtain ⟨ids, hlength, hpairwise, hids⟩ := ih hrest
        refine ⟨id :: ids, congrArg (· + 1) hlength, hpairwise.cons ?_, ?_⟩
        · intro inner hinner
          apply TransGen.head' hpart (hids inner hinner).1
        · intro inner hinner
          rcases List.mem_cons.mp hinner with rfl | hinner
          · use .refl, part
          · obtain ⟨hreaches, hinner⟩ := hids inner hinner
            use hreaches.head hpart
      rw [unwrapWithin] at h
      split at h
      case h_1 element helement => apply hnext (Or.inl helement) (Option.map_eq_none_iff.mp h)
      case h_2 value hvalue => apply hnext (Or.inr hvalue) (Option.map_eq_none_iff.mp h)
      case h_3 => cases h

/-- Unless an array or a map contains itself by arrays and maps alone, every type is looked through
to its middle. -/
theorem exists_unwraps (h : ∀ id, ¬TransGen graph.IsElement id id) (id : TypeId) :
  ∃ wrappers core, graph.Unwraps id wrappers core ∧ graph.unwrap id = some (wrappers, core)
  := by
  cases hunwrap : graph.unwrap id with
  | some found =>
      obtain ⟨wrappers, core⟩ := found
      use wrappers, core, unwraps_of_unwrapWithin hunwrap
  | none =>
      obtain ⟨ids, hlength, hpairwise, hids⟩ := exists_elements_of_unwrapWithin hunwrap
      have hnodup : ids.Nodup := by
        apply hpairwise.imp
        rintro outer inner hinner rfl
        apply h outer hinner
      have hsubset : ids ⊆ graph.typeIds := by
        intro inner hinner
        obtain ⟨-, part, hpart⟩ := hids inner hinner
        apply mem_typeIds.mpr
        rcases hpart with hpart | hpart
        · apply declares_of_kind? hpart
        · apply declares_of_kind? hpart
      have hle := (hnodup.subperm hsubset).length_le
      rw [hlength, typeIds, List.length_map, List.length_range] at hle
      apply absurd hle (Nat.not_succ_le_self _)

end TypeGraph

end ServiceBindings
