import ServiceBindings.Proofs.Route.Contents

/-!
# Route trees are compressed

A route tree is a prefix tree in which no literal edge could be longer and none leads nowhere.  The
text of a literal edge is the longest one that its routes share, so below it they end, capture or go
on with different characters.
-/

namespace ServiceBindings

namespace RouteNode

variable {depth : Nat} {routes : List Remainder} {route : Remainder} {c : Char}

/-! ### After the shared text -/

/-- After the text that they share, routes do not all go on with the same character. -/
theorem exists_nextOutline_ne (hne : routes ≠ []) (d : Char) :
  ∃ route ∈ routes, nextOutline (advance (sharedText routes).length route) ≠ some (some d)
  := by
  by_contra hall
  push Not at hall
  -- Otherwise the character would belong to the text that they share.
  have hlonger : sharedText routes ++ [d] <+: sharedText routes := by
    apply (prefix_sharedText hne).mpr
    intro route hroute
    have hnext := nextOutline_eq_char.mp (hall route hroute)
    obtain ⟨rest, hrest⟩ := List.head?_eq_some_iff.mp hnext
    have hsteps : route.2 = (sharedText routes).map Step.char
        ++ (advance (sharedText routes).length route).2 :=
      steps_eq_sharedText hroute
    rw [hsteps, hrest, leadingText_text, leadingText, List.prefix_append_right_inj]
    apply List.prefix_append [d]
  have hlength := hlonger.length_le
  rw [List.length_append, List.length_singleton] at hlength
  omega

/-! ### Compressed nodes -/

/-- Whether a node has nothing but a single literal edge, which could be joined with one that leads
to the node. -/
def IsJoint (node : RouteNode) : Prop :=
  node.terminals = [] ∧ (∃ edge, node.literals = [edge]) ∧ node.parameter = none

/-- Whether a route ends at a node or below it. -/
def Serves (node : RouteNode) : Prop :=
  ∃ part, IsPart part node ∧ part.terminals ≠ []

/-- What makes a node one of a compressed prefix tree. -/
structure Compressed (node : RouteNode) : Prop where
  /-- Literal edges have texts. -/
  text : ∀ edge ∈ node.literals, edge.1 ≠ []
  /-- No two literal edges start with the same character. -/
  firsts : node.literals.Pairwise fun first second => first.1.head? ≠ second.1.head?
  /-- A parameter edge has names, each once. -/
  names : ∀ names child, node.parameter = some (names, child) → names ≠ [] ∧ names.Nodup
  /-- A route ends below each literal edge. -/
  literals_serve : ∀ edge ∈ node.literals, edge.2.Serves
  /-- A route ends below the parameter edge. -/
  parameter_serves : ∀ names child, node.parameter = some (names, child) → child.Serves
  /-- No literal edge could be joined with the only one after it. -/
  joints : ∀ edge ∈ node.literals, ¬edge.2.IsJoint

theorem Serves.literal {node : RouteNode} {edge : List Char × RouteNode}
    (hedge : edge ∈ node.literals) (h : edge.2.Serves) :
  node.Serves
  := by
  obtain ⟨part, hpart, hterminals⟩ := h
  use part, IsPart.literal hedge hpart

theorem Serves.parameter {node child : RouteNode} {names : List String}
    (hedge : node.parameter = some (names, child)) (h : child.Serves) :
  node.Serves
  := by
  obtain ⟨part, hpart, hterminals⟩ := h
  use part, IsPart.parameter hedge hpart

/-- A route that ends at a node is among its terminals. -/
theorem terminals_ne_nil (depth : Nat) (hroute : route ∈ routes) (h : nextOutline route = none) :
  (build depth routes).terminals ≠ []
  := by
  rw [terminals_build, filterMap_ended_eq]
  apply List.ne_nil_of_mem
  apply List.mem_map_of_mem (List.mem_filter.mpr ⟨hroute, decide_eq_true h⟩)

/-- A route that goes on with a capture makes a parameter edge. -/
theorem parameter_of_capture (depth : Nat) (hroute : route ∈ routes)
    (h : nextOutline route = some none) :
  advance 1 route ∈ afterCapture routes
    ∧ (build (depth + 1) routes).parameter
      = some (captureNames routes, build depth (afterCapture routes))
  := by
  have hafter := advance_mem_afterCapture hroute h
  use hafter
  apply parameter_build_of_captures
  intro hnil
  rw [afterCapture, hnil] at hafter
  cases hafter

/-- Each of some routes ends in their tree. -/
theorem serves_build (hroute : route ∈ routes) (h : ∀ route ∈ routes, route.2.length ≤ depth) :
  (build depth routes).Serves
  := by
  induction depth generalizing routes route with
  | zero =>
      have hended := nextOutline_eq_none.mpr (steps_eq_nil_of_length h route hroute)
      use build 0 routes, IsPart.root _, terminals_ne_nil 0 hroute hended
  | succ depth ih =>
      match hnext : nextOutline route with
      | none => use build (depth + 1) routes, IsPart.root _, terminals_ne_nil _ hroute hnext
      | some (some c) =>
          have hgroup := mem_startingWith.mpr ⟨hroute, nextOutline_eq_char.mp hnext⟩
          have hc := mem_firstChars_of_mem hgroup
          have hedge : literalEdge depth routes c ∈ (build (depth + 1) routes).literals :=
            List.mem_map_of_mem hc
          apply Serves.literal hedge
          apply ih (List.mem_map_of_mem hgroup) (length_le_of_mem_literal hc h)
      | some none =>
          obtain ⟨hafter, hparameter⟩ := parameter_of_capture depth hroute hnext
          apply Serves.parameter hparameter
          apply ih hafter (length_le_of_mem_afterCapture h)

/-- A literal edge is not followed by a single literal edge. -/
theorem not_isJoint_literalEdge (hc : c ∈ firstChars routes) :
  ¬(literalEdge depth routes c).2.IsJoint
  := by
  rintro ⟨hterminals, ⟨edge, hliterals⟩, hparameter⟩
  cases depth with
  | zero => cases hliterals
  | succ depth =>
      obtain ⟨d, hd, -⟩ := List.map_eq_singleton_iff.mp hliterals
      obtain ⟨before, hbefore, hne⟩ := exists_nextOutline_ne (mem_firstChars.mp hc) d
      have hroute := List.mem_map_of_mem
        (f := advance (sharedText (startingWith routes c)).length) hbefore
      match hnext : nextOutline (advance (sharedText (startingWith routes c)).length before) with
      | none => apply terminals_ne_nil _ hroute hnext hterminals
      | some none => cases (parameter_of_capture depth hroute hnext).2.symm.trans hparameter
      | some (some e) =>
          have he := mem_firstChars_of_nextOutline hroute hnext
          rw [hd, List.mem_singleton] at he
          apply hne
          rw [hnext, he]

/-- The literal edges of a node start with the characters that its routes go on with. -/
theorem heads_literals (depth : Nat) (routes : List Remainder) :
  (build (depth + 1) routes).literals.map (fun edge => edge.1.head?) = (firstChars routes).map some
  := by
  rw [literals_build_succ, List.map_map]
  apply List.map_congr_left
  intro c hc
  apply literalEdge_head depth hc

theorem captureNames_ne_nil (h : afterCapture routes ≠ []) : captureNames routes ≠ [] := by
  obtain ⟨after, hafter⟩ := List.exists_mem_of_ne_nil _ h
  obtain ⟨name, hroute⟩ := mem_afterCapture.mp hafter
  apply List.ne_nil_of_mem
  apply mem_captureNames.mpr ⟨_, hroute, namesAt_nil.mpr ⟨after.2, rfl⟩⟩

/-- The root of the tree of some routes is compressed. -/
theorem compressed_build (h : ∀ route ∈ routes, route.2.length ≤ depth) :
  (build depth routes).Compressed
  := by
  cases depth with
  | zero => constructor <;> simp [build, literals, parameter]
  | succ depth =>
      constructor
      case text =>
        intro edge hedge hnil
        obtain ⟨c, hc, rfl⟩ := List.mem_map.mp hedge
        have hhead := literalEdge_head depth hc
        rw [show (literalEdge depth routes c).1 = [] from hnil] at hhead
        cases hhead
      case firsts =>
        have hheads : ((build (depth + 1) routes).literals.map fun edge => edge.1.head?).Nodup := by
          rw [heads_literals]
          apply List.Nodup.map (fun _ _ => Option.some.inj) (nodup_eraseDups _)
        apply List.pairwise_map.mp hheads
      case names =>
        intro names child hedge
        obtain ⟨hafter, rfl, -⟩ := parameter_build_eq_some hedge
        use captureNames_ne_nil hafter, nodup_eraseDups _
      case literals_serve =>
        intro edge hedge
        obtain ⟨c, hc, rfl⟩ := List.mem_map.mp hedge
        obtain ⟨route, hroute⟩ := List.exists_mem_of_ne_nil _ (mem_firstChars.mp hc)
        apply serves_build (List.mem_map_of_mem hroute) (length_le_of_mem_literal hc h)
      case parameter_serves =>
        intro names child hedge
        obtain ⟨hafter, -, rfl⟩ := parameter_build_eq_some hedge
        obtain ⟨route, hroute⟩ := List.exists_mem_of_ne_nil _ hafter
        apply serves_build hroute (length_le_of_mem_afterCapture h)
      case joints =>
        intro edge hedge
        obtain ⟨c, hc, rfl⟩ := List.mem_map.mp hedge
        apply not_isJoint_literalEdge hc

/-- Every node of the tree of some routes is compressed. -/
theorem IsPart.compressed {node : RouteNode} (hnode : IsPart node (build depth routes))
    (h : ∀ route ∈ routes, route.2.length ≤ depth) :
  node.Compressed
  := by
  obtain ⟨below, rest, rfl, hrest⟩ := hnode.exists_build_of
    (motive := fun depth routes => ∀ route ∈ routes, route.2.length ≤ depth)
    (fun hc hlength => length_le_of_mem_literal hc hlength)
    (fun hlength => length_le_of_mem_afterCapture hlength) h
  apply compressed_build hrest

/-- The tree of the routes of some templates is a compressed prefix tree: literal edges have texts
that start with different characters, parameter edges have names, each once, a route ends below
every edge, and no literal edge leads to a node that has nothing but a single literal edge. -/
theorem ofRoutes_compressed (sources : List (Nat × Verb × String)) (node : RouteNode)
    (hnode : IsPart node (ofRoutes (Route.ofTemplates sources))) :
  node.Compressed
  := by
  rw [ofRoutes_eq_build fun _ => Route.tidy_of_mem] at hnode
  apply hnode.compressed length_le_deepest

/-- Routes whose literal texts share beginnings. -/
def cafeTemplates : List (Nat × Verb × String) :=
  [(0, .get, "/caf\u00e9/\x7bcafe\x7d"), (1, .put, "/caf\u00e9/\x7bid\x7d"),
    (2, .get, "/caf\u00e8"), (3, .get, "x")]

/-- The characters `é` and `è` are told apart below the text before them. -/
theorem ofRoutes_compressed_cafe :
  ∃ edge ∈ (ofRoutes (Route.ofTemplates cafeTemplates)).literals, edge.1 = "/caf".toList
    ∧ edge.2.literals.map (·.1) = ["\u00e9/".toList, "\u00e8".toList] ∧ edge.2.Compressed
  := by
  have hedge := List.get_mem (ofRoutes (Route.ofTemplates cafeTemplates)).literals
    ⟨0, by decide +kernel⟩
  refine ⟨_, hedge, by decide +kernel, by decide +kernel, ?_⟩
  apply ofRoutes_compressed cafeTemplates _ (IsPart.literal hedge (IsPart.root _))

end RouteNode

end ServiceBindings
