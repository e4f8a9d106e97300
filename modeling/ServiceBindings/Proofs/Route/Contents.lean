import ServiceBindings.Proofs.Route.Exactness
import ServiceBindings.Proofs.Route.Groups
import ServiceBindings.Proofs.Route.Shape

/-!
# What a route tree holds

A route tree holds each route once, at the end of a way that spells its template, and routes of the
same shape end together.  The duplicates of the tree are the routes that come after one of the same
method and shape.

The tree is built from groups of routes: those that end, those that go on with the same character,
and those that go on with a capture.  Each list that is collected from the tree is compared with the
routes group by group.
-/

namespace ServiceBindings

/-! ### Routes and their ends -/

/-- Where a route ends. -/
def Route.terminal (route : Route) : Terminal :=
  ⟨route.endpoint, route.verb⟩

/-- Whether two routes have the same method and the same shape. -/
def Route.overlap (first second : Route) : Bool :=
  first.verb = second.verb && first.shape = second.shape

/-- The routes that come after one of the same method and shape, with the first of these. -/
def Route.overlaps (routes : List Route) : List (Terminal × Terminal) :=
  (repeats overlap [] routes).map (Prod.map terminal terminal)

namespace RouteNode

/-- An edge of a route tree: a literal text, or a capture under some names. -/
inductive Edge where
  | literal (text : List Char)
  | parameter (names : List String)
  deriving DecidableEq, Repr

/-- `Spelled way steps`: the edges of a way spell the steps, with each capture under one of the
names of its edge. -/
inductive Spelled : List Edge → List Step → Prop where
  | nil : Spelled [] []
  | literal {text : List Char} {way : List Edge} {steps : List Step} :
      Spelled way steps → Spelled (.literal text :: way) (text.map .char ++ steps)
  | parameter {names : List String} {name : String} {way : List Edge} {steps : List Step} :
      name ∈ names → Spelled way steps →
      Spelled (.parameter names :: way) (.capture name :: steps)

/-- An end of a route that is reached by one more edge. -/
def after (edge : Edge) (ending : List Edge × Terminal) : List Edge × Terminal :=
  (edge :: ending.1, ending.2)

mutual

/-- The ends of all routes of a tree, with the ways to them. -/
def ends : RouteNode → List (List Edge × Terminal)
  | mk terminals literals parameter =>
    terminals.map (fun terminal => ([], terminal)) ++ literalEnds literals
      ++ parameterEnds parameter

/-- The ends of routes below literal edges. -/
def literalEnds : List (List Char × RouteNode) → List (List Edge × Terminal)
  | [] => []
  | (text, node) :: rest => (ends node).map (after (.literal text)) ++ literalEnds rest

/-- The ends of routes below a parameter edge. -/
def parameterEnds : Option (List String × RouteNode) → List (List Edge × Terminal)
  | none => []
  | some (names, node) => (ends node).map (after (.parameter names))

end

theorem literalEnds_eq_flatMap (edges : List (List Char × RouteNode)) :
  literalEnds edges = edges.flatMap fun edge => edge.2.ends.map (after (.literal edge.1))
  := by
  induction edges with
  | nil => rfl
  | cons edge edges ih =>
      obtain ⟨text, node⟩ := edge
      rw [literalEnds, ih]
      rfl

theorem literalDuplicates_eq_flatMap (edges : List (List Char × RouteNode)) :
  literalDuplicates edges = edges.flatMap fun edge => edge.2.duplicates
  := by
  induction edges with
  | nil => rfl
  | cons edge edges ih =>
      obtain ⟨text, node⟩ := edge
      rw [literalDuplicates, ih]
      rfl

theorem shadowed_eq_repeats (before terminals : List Terminal) :
  shadowed before terminals
    = repeats (fun kept terminal => kept.verb = terminal.verb) before terminals
  := by
  induction terminals generalizing before with
  | nil => rfl
  | cons terminal terminals ih =>
      rw [shadowed, repeats, ih]
      cases before.find? fun kept => kept.verb = terminal.verb <;> rfl

/-! ### Ways to the ends -/

variable {depth : Nat} {routes : List Remainder} {route other : Remainder}

/-- The way that the steps of a route take in the tree of some routes. -/
def way : Nat → List Remainder → List Step → List Edge
  | depth + 1, routes, .char c :: steps =>
    let text := (literalEdge depth routes c).1
    .literal text :: way depth ((startingWith routes c).map (advance text.length))
      ((.char c :: steps).drop text.length)
  | depth + 1, routes, .capture _ :: steps =>
    .parameter (captureNames routes) :: way depth (afterCapture routes) steps
  | _, _, _ => []

theorem way_nil (depth : Nat) (routes : List Remainder) : way depth routes [] = [] := by
  cases depth <;> rfl

/-- Where a route goes on with a character, its way starts with the literal edge for it. -/
theorem way_char {c : Char} (h : route.2.head? = some (.char c)) :
  way (depth + 1) routes route.2
    = .literal (literalEdge depth routes c).1
      :: way depth ((startingWith routes c).map (advance (literalEdge depth routes c).1.length))
        (advance (literalEdge depth routes c).1.length route).2
  := by
  obtain ⟨steps, hsteps⟩ := List.head?_eq_some_iff.mp h
  rw [hsteps, way, advance, hsteps]

/-- Where a route goes on with a capture, its way starts with the parameter edge. -/
theorem way_capture (h : nextOutline route = some none) :
  way (depth + 1) routes route.2
    = .parameter (captureNames routes) :: way depth (afterCapture routes) (advance 1 route).2
  := by
  obtain ⟨name, steps, hsteps⟩ := nextOutline_eq_capture.mp h
  rw [hsteps, way, advance, hsteps, List.drop_succ_cons, List.drop_zero]

theorem ends_build_nil (depth : Nat) : (build depth []).ends = [] := by
  cases depth <;> rfl

theorem duplicates_build_nil (depth : Nat) : (build depth []).duplicates = [] := by
  cases depth <;> rfl

/-- A node of `build` has the ends of the routes that end there, and those below its edges. -/
theorem ends_build_succ (depth : Nat) (routes : List Remainder) :
  (build (depth + 1) routes).ends
    = (routes.filterMap ended?).map (fun terminal => ([], terminal))
      ++ ((firstChars routes).flatMap fun c =>
        (literalEdge depth routes c).2.ends.map (after (.literal (literalEdge depth routes c).1)))
      ++ (build depth (afterCapture routes)).ends.map (after (.parameter (captureNames routes)))
  := by
  have hnode : build (depth + 1) routes = mk (routes.filterMap ended?)
      ((firstChars routes).map (literalEdge depth routes))
      (build (depth + 1) routes).parameter := rfl
  rw [hnode, ends, literalEnds_eq_flatMap, List.flatMap_map]
  congr 1
  by_cases hcaptures : routes.filterMap nextCapture? = []
  · rw [parameter_build_succ, if_pos (by simpa using hcaptures), afterCapture, hcaptures,
      List.map_nil, ends_build_nil]
    rfl
  · rw [parameter_build_of_captures depth hcaptures]
    rfl

/-- A node of `build` has the duplicates among the routes that end there, and those below its
edges. -/
theorem duplicates_build_succ (depth : Nat) (routes : List Remainder) :
  (build (depth + 1) routes).duplicates
    = shadowed [] (routes.filterMap ended?)
      ++ ((firstChars routes).flatMap fun c => (literalEdge depth routes c).2.duplicates)
      ++ (build depth (afterCapture routes)).duplicates
  := by
  have hnode : build (depth + 1) routes = mk (routes.filterMap ended?)
      ((firstChars routes).map (literalEdge depth routes))
      (build (depth + 1) routes).parameter := rfl
  rw [hnode, duplicates, literalDuplicates_eq_flatMap, List.flatMap_map]
  congr 1
  by_cases hcaptures : routes.filterMap nextCapture? = []
  · rw [parameter_build_succ, if_pos (by simpa using hcaptures), afterCapture, hcaptures,
      List.map_nil, duplicates_build_nil]
    rfl
  · rw [parameter_build_of_captures depth hcaptures]
    rfl

/-- The routes that go on with a character do so with one that a literal edge is for. -/
theorem mem_firstChars_of_nextOutline {c : Char} (hroute : route ∈ routes)
    (h : nextOutline route = some (some c)) :
  c ∈ firstChars routes :=
  mem_firstChars_of_mem (mem_startingWith.mpr ⟨hroute, nextOutline_eq_char.mp h⟩)

/-- Routes below a literal edge are shorter. -/
theorem length_le_of_mem_literal {c : Char} (hc : c ∈ firstChars routes)
    (h : ∀ route ∈ routes, route.2.length ≤ depth + 1) :
  ∀ route ∈ (startingWith routes c).map (advance (literalEdge depth routes c).1.length),
    route.2.length ≤ depth
  := by
  intro route hroute
  obtain ⟨before, hbefore, rfl⟩ := List.mem_map.mp hroute
  apply length_advance_le hc (h before (List.mem_of_mem_filter hbefore))

/-- Routes below a parameter edge are shorter. -/
theorem length_le_of_mem_afterCapture (h : ∀ route ∈ routes, route.2.length ≤ depth + 1) :
  ∀ route ∈ afterCapture routes, route.2.length ≤ depth
  := by
  intro route hroute
  obtain ⟨name, hbefore⟩ := mem_afterCapture.mp hroute
  apply Nat.le_of_succ_le_succ (h _ hbefore)

theorem steps_eq_nil_of_length (h : ∀ route ∈ routes, route.2.length ≤ 0) :
  ∀ route ∈ routes, route.2 = [] :=
  fun route hroute => List.length_eq_zero_iff.mp (Nat.le_zero.mp (h route hroute))

/-- Routes without steps end at the node, in order. -/
theorem filterMap_ended_of_nil (h : ∀ route ∈ routes, route.2 = []) :
  routes.filterMap ended? = routes.map (·.1)
  := by
  rw [filterMap_ended, List.filter_eq_self.mpr]
  intro route hroute
  rw [h route hroute, List.isEmpty_nil]

/-- The tree holds the end of each route once, at the way that its steps take. -/
theorem ends_build (depth : Nat) (routes : List Remainder)
    (h : ∀ route ∈ routes, route.2.length ≤ depth) :
  (build depth routes).ends.Perm (routes.map fun route => (way depth routes route.2, route.1))
  := by
  induction depth generalizing routes with
  | zero =>
      have hnil := steps_eq_nil_of_length h
      have hends : (build 0 routes).ends
          = (routes.filterMap ended?).map (fun terminal => ([], terminal)) ++ [] ++ [] := rfl
      rw [hends, filterMap_ended_of_nil hnil, List.append_nil, List.append_nil, List.map_map]
      apply List.Perm.of_eq
      apply List.map_congr_left
      intro route hroute
      rw [hnil route hroute]
      rfl
  | succ depth ih =>
      let place (route : Remainder) := (way (depth + 1) routes route.2, route.1)
      have hended : (routes.filterMap ended?).map (fun terminal => ([], terminal))
          = (routes.filter fun route => nextOutline route = none).map place := by
        rw [filterMap_ended_eq, List.map_map]
        apply List.map_congr_left
        intro route hroute
        have hnone : nextOutline route = none := by simpa using (List.mem_filter.mp hroute).2
        simp only [place, Function.comp_apply, nextOutline_eq_none.mp hnone, way_nil]
      have hliteral : ∀ c ∈ firstChars routes,
          ((literalEdge depth routes c).2.ends.map
            (after (.literal (literalEdge depth routes c).1))).Perm
          ((routes.filter fun route => nextOutline route = some (some c)).map place) := by
        intro c hc
        apply ((ih _ (length_le_of_mem_literal hc h)).map _).trans
        apply List.Perm.of_eq
        rw [← startingWith_eq_filter, List.map_map, List.map_map]
        apply List.map_congr_left
        intro route hroute
        simp only [place, Function.comp_apply, way_char (mem_startingWith.mp hroute).2]
        rfl
      have hparameter : ((build depth (afterCapture routes)).ends.map
            (after (.parameter (captureNames routes)))).Perm
          ((routes.filter fun route => nextOutline route = some none).map place) := by
        apply ((ih _ (length_le_of_mem_afterCapture h)).map _).trans
        apply List.Perm.of_eq
        rw [afterCapture_eq_map, List.map_map, List.map_map, ← afterCapture_eq_map]
        apply List.map_congr_left
        intro route hroute
        have hnext : nextOutline route = some none := by simpa using (List.mem_filter.mp hroute).2
        simp only [place, Function.comp_apply, way_capture hnext]
        rfl
      have hgroups := (perm_groups nextOutline (nodup_eraseDups _) routes
        (fun _ hroute _ => mem_firstChars_of_nextOutline hroute)).map place
      rw [List.map_append, List.map_append, List.map_flatMap] at hgroups
      rw [ends_build_succ, hended]
      apply List.Perm.trans _ hgroups
      apply List.Perm.append _ hparameter
      apply List.Perm.append_left
      apply List.Perm.flatMap_left _ hliteral

/-! ### Routes on the same way -/

/-- The way of a route spells its steps. -/
theorem spelled_way (depth : Nat) {routes : List Remainder} {route : Remainder}
    (hroute : route ∈ routes) (hlength : route.2.length ≤ depth) :
  Spelled (way depth routes route.2) route.2
  := by
  induction depth generalizing routes route with
  | zero =>
      rw [List.length_eq_zero_iff.mp (Nat.le_zero.mp hlength)]
      apply Spelled.nil
  | succ depth ih =>
      match hnext : nextOutline route with
      | none =>
          rw [nextOutline_eq_none.mp hnext]
          apply Spelled.nil
      | some (some c) =>
          have hhead := nextOutline_eq_char.mp hnext
          have hgroup := mem_startingWith.mpr ⟨hroute, hhead⟩
          have hlength' := length_advance_le (mem_firstChars_of_mem hgroup) hlength
          have hsteps : route.2 = (literalEdge depth routes c).1.map Step.char
              ++ (advance (literalEdge depth routes c).1.length route).2 :=
            steps_eq_sharedText hgroup
          rw [way_char hhead, hsteps]
          apply Spelled.literal (ih (List.mem_map_of_mem hgroup) hlength')
      | some none =>
          rw [way_capture hnext]
          obtain ⟨name, rest, hsteps⟩ := nextOutline_eq_capture.mp hnext
          obtain ⟨terminal, steps⟩ := route
          obtain rfl : steps = .capture name :: rest := hsteps
          apply Spelled.parameter
          · apply mem_captureNames.mpr ⟨_, hroute, namesAt_nil.mpr ⟨rest, rfl⟩⟩
          · apply ih (mem_afterCapture.mpr ⟨name, hroute⟩) (Nat.le_of_succ_le_succ hlength)

/-- What a route goes on with where its way goes along an edge. -/
def Edge.first : Edge → Option (Option Char)
  | literal text => text.head?.map some
  | parameter _ => some none

/-- The first edge of the way of a route tells what the route goes on with. -/
theorem first_way (hroute : route ∈ routes) :
  (way (depth + 1) routes route.2).head?.bind Edge.first = nextOutline route
  := by
  match hnext : nextOutline route with
  | none =>
      rw [nextOutline_eq_none.mp hnext]
      rfl
  | some (some c) =>
      have hc := mem_firstChars_of_nextOutline hroute hnext
      rw [way_char (nextOutline_eq_char.mp hnext), List.head?_cons, Option.bind_some, Edge.first,
        literalEdge_head depth hc, Option.map_some]
  | some none =>
      rw [way_capture hnext]
      rfl

/-- Two routes take the same way exactly if they read alike. -/
theorem way_eq_iff (depth : Nat) {routes : List Remainder} {route other : Remainder}
    (hroute : route ∈ routes) (hother : other ∈ routes) (hlength : route.2.length ≤ depth)
    (hlength' : other.2.length ≤ depth) :
  way depth routes route.2 = way depth routes other.2 ↔ outline route.2 = outline other.2
  := by
  induction depth generalizing routes route other with
  | zero =>
      rw [List.length_eq_zero_iff.mp (Nat.le_zero.mp hlength),
        List.length_eq_zero_iff.mp (Nat.le_zero.mp hlength')]
      simp
  | succ depth ih =>
      by_cases hnext : nextOutline route = nextOutline other
      · match hother' : nextOutline other with
        | none =>
            rw [hother'] at hnext
            rw [nextOutline_eq_none.mp hnext, nextOutline_eq_none.mp hother']
            simp
        | some (some c) =>
            rw [hother'] at hnext
            have hhead := nextOutline_eq_char.mp hnext
            have hhead' := nextOutline_eq_char.mp hother'
            have hgroup := mem_startingWith.mpr ⟨hroute, hhead⟩
            have hgroup' := mem_startingWith.mpr ⟨hother, hhead'⟩
            have hc := mem_firstChars_of_mem hgroup
            rw [way_char hhead, way_char hhead', List.cons_eq_cons, and_iff_right rfl,
              ih (List.mem_map_of_mem hgroup) (List.mem_map_of_mem hgroup')
                (length_advance_le hc hlength) (length_advance_le hc hlength')]
            apply outline_drop_eq_iff (outline_take_literal hgroup hgroup')
        | some none =>
            rw [hother'] at hnext
            have hshorter {member : Remainder} (h : member.2.length ≤ depth + 1) :
                (advance 1 member).2.length ≤ depth := by
              rw [advance, List.length_drop]
              omega
            rw [way_capture hnext, way_capture hother', List.cons_eq_cons, and_iff_right rfl,
              ih (advance_mem_afterCapture hroute hnext) (advance_mem_afterCapture hother hother')
                (hshorter hlength) (hshorter hlength')]
            apply outline_drop_eq_iff (outline_take_capture hnext hother')
      · -- Routes that go on differently differ, and so do the first edges of their ways.
        constructor
        · intro hway
          rw [← first_way hroute, ← first_way hother, hway] at hnext
          apply absurd rfl hnext
        · intro houtline
          rw [nextOutline_eq_head?, nextOutline_eq_head?, houtline] at hnext
          apply absurd rfl hnext

/-! ### Duplicates -/

/-- Whether two remainders have the same method and read alike. -/
def rival (first second : Remainder) : Bool :=
  first.1.verb = second.1.verb && outline first.2 = outline second.2

/-- Routes that start alike are rivals exactly if they are so after that. -/
theorem repeats_advance {count : Nat}
    (h : ∀ route ∈ routes, ∀ other ∈ routes,
      outline (route.2.take count) = outline (other.2.take count)) :
  (repeats rival [] (routes.map (advance count))).map (Prod.map (·.1) (·.1))
    = (repeats rival [] routes).map (Prod.map (·.1) (·.1))
  := by
  have hrepeats : repeats rival [] (routes.map (advance count))
      = (repeats rival [] routes).map (Prod.map (advance count) (advance count)) := by
    apply repeats_map (advance count) [] routes
    intro route hroute other hother
    rw [rival, rival, advance, advance]
    congr 1
    rw [decide_eq_decide]
    apply outline_drop_eq_iff (h route hroute other hother)
  rw [hrepeats, List.map_map]
  rfl

/-- Among routes without steps the rivals are those of the same method. -/
theorem shadowed_of_nil (h : ∀ route ∈ routes, route.2 = []) :
  shadowed [] (routes.map (·.1)) = (repeats rival [] routes).map (Prod.map (·.1) (·.1))
  := by
  rw [shadowed_eq_repeats]
  apply repeats_map (·.1) [] routes
  intro route hroute other hother
  rw [rival, h route hroute, h other hother]
  simp

/-- The duplicates of the tree are the routes that come after a rival. -/
theorem duplicates_build (depth : Nat) (routes : List Remainder)
    (h : ∀ route ∈ routes, route.2.length ≤ depth) :
  (build depth routes).duplicates.Perm
    ((repeats rival [] routes).map (Prod.map (·.1) (·.1)))
  := by
  induction depth generalizing routes with
  | zero =>
      have hnil := steps_eq_nil_of_length h
      have hduplicates : (build 0 routes).duplicates
          = shadowed [] (routes.filterMap ended?) ++ [] ++ [] := rfl
      rw [hduplicates, filterMap_ended_of_nil hnil, List.append_nil, List.append_nil,
        shadowed_of_nil hnil]
  | succ depth ih =>
      let pairs (group : List Remainder) := (repeats rival [] group).map (Prod.map (·.1) (·.1))
      have hended : shadowed [] (routes.filterMap ended?)
          = pairs (routes.filter fun route => nextOutline route = none) := by
        rw [filterMap_ended_eq]
        apply shadowed_of_nil
        intro route hroute
        apply nextOutline_eq_none.mp
        simpa using (List.mem_filter.mp hroute).2
      have hliteral : ∀ c ∈ firstChars routes, (literalEdge depth routes c).2.duplicates.Perm
          (pairs (routes.filter fun route => nextOutline route = some (some c))) := by
        intro c hc
        apply (ih _ (length_le_of_mem_literal hc h)).trans
        rw [repeats_advance, startingWith_eq_filter]
        intro route hroute other hother
        apply outline_take_literal hroute hother
      have hparameter : (build depth (afterCapture routes)).duplicates.Perm
          (pairs (routes.filter fun route => nextOutline route = some none)) := by
        apply (ih _ (length_le_of_mem_afterCapture h)).trans
        rw [afterCapture_eq_map, repeats_advance]
        intro route hroute other hother
        apply outline_take_capture
        · simpa using (List.mem_filter.mp hroute).2
        · simpa using (List.mem_filter.mp hother).2
      -- Rivals belong to the same group.
      have hfilter (next : Option (Option Char)) :
          (repeats rival [] routes).filter (fun pair => nextOutline pair.2 = next)
            = repeats rival [] (routes.filter fun route => nextOutline route = next) := by
        apply repeats_filter fun route => nextOutline route = next
        intro route other hrival
        rw [rival, Bool.and_eq_true_iff, decide_eq_true_iff, decide_eq_true_iff] at hrival
        rw [nextOutline_eq_head?, nextOutline_eq_head?, hrival.2]
      have hgroups := (perm_groups (fun pair : Remainder × Remainder => nextOutline pair.2)
        (nodup_eraseDups (routes.filterMap nextChar?)) (repeats rival [] routes) (by
          intro pair hpair c hc
          obtain ⟨earlier, later, hroutes, -⟩ := mem_repeats.mp hpair
          apply mem_firstChars_of_nextOutline _ hc
          simp [hroutes])).map (Prod.map (·.1) (·.1))
      simp only [hfilter, List.map_append, List.map_flatMap] at hgroups
      rw [duplicates_build_succ, hended]
      apply List.Perm.trans _ hgroups
      apply List.Perm.append _ hparameter
      apply List.Perm.append_left
      apply List.Perm.flatMap_left _ hliteral

/-! ### Nodes -/

/-- The nodes of a tree of routes are trees of routes, which have what the edges pass on. -/
theorem IsPart.exists_build_of {motive : Nat → List Remainder → Prop}
    (hliteral : ∀ {depth routes c}, c ∈ firstChars routes → motive (depth + 1) routes →
      motive depth ((startingWith routes c).map (advance (literalEdge depth routes c).1.length)))
    (hcapture : ∀ {depth routes}, motive (depth + 1) routes → motive depth (afterCapture routes))
    {node : RouteNode} (hnode : IsPart node (build depth routes)) (h : motive depth routes) :
  ∃ below rest, node = build below rest ∧ motive below rest
  := by
  induction depth generalizing routes with
  | zero =>
      cases hnode with
      | root => use 0, routes
      | literal hedge => cases hedge
      | parameter hedge => cases hedge
  | succ depth ih =>
      cases hnode with
      | root => use depth + 1, routes
      | literal hedge hpart =>
          obtain ⟨c, hc, hchild⟩ := List.mem_map.mp hedge
          obtain rfl := congrArg Prod.snd hchild
          apply ih hpart (hliteral hc h)
      | parameter hedge hpart =>
          obtain ⟨-, -, rfl⟩ := parameter_build_eq_some hedge
          apply ih hpart (hcapture h)

theorem IsPart.exists_build {node tree : RouteNode} (h : IsPart node tree) (depth : Nat)
    (routes : List Remainder) (htree : tree = build depth routes) :
  ∃ depth routes, node = build depth routes
  := by
  subst htree
  obtain ⟨below, rest, hnode, -⟩ := h.exists_build_of (motive := fun _ _ => True)
    (fun _ _ => trivial) (fun _ => trivial) trivial
  use below, rest

/-- The literal edges of a node have different texts. -/
theorem literals_nodup (depth : Nat) (routes : List Remainder) :
  ((build depth routes).literals.map (·.1)).Nodup
  := by
  cases depth with
  | zero => apply List.nodup_nil
  | succ depth =>
      rw [literals_build_succ, List.map_map]
      apply List.Nodup.map_on _ (nodup_eraseDups _)
      intro c hc d hd htext
      have hhead := literalEdge_head depth hc
      rw [show (literalEdge depth routes c).1 = (literalEdge depth routes d).1 from htext,
        literalEdge_head depth hd] at hhead
      apply (Option.some.inj hhead).symm

/-! ### Routes of templates -/

/-- A walk that ends where the route of a template ends does so for the routes of the same shape. -/
theorem Walks.shape_alike {sources : List (Nat × Verb × String)} {route other : Route}
    {path : List Char} {chosen : List Step → Bool} {more : List (String × List Char)}
    (h : Walks depth (remainders (Route.ofTemplates sources)) path chosen more)
    (hroute : route ∈ Route.ofTemplates sources) (hother : other ∈ Route.ofTemplates sources)
    (hchosen : chosen route.steps = true) :
  chosen other.steps = true ↔ other.shape = route.shape
  := by
  rw [Route.shape_eq_iff (Route.tidy_of_mem hother) (Route.tidy_of_mem hroute)]
  apply h.alike (mem_remainders hroute) (mem_remainders hother) hchosen

/-- Routes of templates overlap exactly if they are rivals. -/
theorem rival_eq_overlap {first second : Route} (hfirst : Template.Tidy first.segments)
    (hsecond : Template.Tidy second.segments) :
  rival (first.terminal, first.steps) (second.terminal, second.steps) = first.overlap second
  := by
  rw [rival, Route.overlap]
  congr 1
  rw [decide_eq_decide, Route.shape_eq_iff hfirst hsecond]

/-- The duplicates of the tree of some templates are the routes that overlap an earlier one. -/
theorem duplicates_ofRoutes (sources : List (Nat × Verb × String)) :
  (ofRoutes (Route.ofTemplates sources)).duplicates.Perm
    (Route.overlaps (Route.ofTemplates sources))
  := by
  have hrepeats : repeats rival [] (remainders (Route.ofTemplates sources))
      = (repeats Route.overlap [] (Route.ofTemplates sources)).map (Prod.map
          (fun route => (route.terminal, route.steps)) fun route =>
            (route.terminal, route.steps)) := by
    apply repeats_map (fun route : Route => (route.terminal, route.steps)) []
    intro route hroute other hother
    apply rival_eq_overlap (Route.tidy_of_mem hroute) (Route.tidy_of_mem hother)
  have hduplicates := duplicates_build _ _ (@length_le_deepest (Route.ofTemplates sources))
  rw [ofRoutes_eq_build fun _ => Route.tidy_of_mem]
  rw [hrepeats, List.map_map] at hduplicates
  apply hduplicates

/-- The tree of routes neither loses nor doubles nor alters a route.  It holds the end of each route
once, at a way that spells the template of the route; since the literal edges of a node have
different texts, a way leads to one node.  Two routes take the same way exactly if their templates
are the same up to the names of parameters.  The duplicates are the routes that come after one of
the same method and shape, with the first such route. -/
theorem ofRoutes_keeps_routes (sources : List (Nat × Verb × String)) :
  ∃ way : Route → List Edge,
    (ofRoutes (Route.ofTemplates sources)).ends.Perm
      ((Route.ofTemplates sources).map fun route => (way route, route.terminal))
    ∧ (∀ route ∈ Route.ofTemplates sources, Spelled (way route) route.steps)
    ∧ (∀ node, IsPart node (ofRoutes (Route.ofTemplates sources)) →
      (node.literals.map (·.1)).Nodup)
    ∧ (∀ route ∈ Route.ofTemplates sources, ∀ other ∈ Route.ofTemplates sources,
      (way route = way other ↔ route.shape = other.shape))
    ∧ (ofRoutes (Route.ofTemplates sources)).duplicates.Perm
      (Route.overlaps (Route.ofTemplates sources))
  := by
  have hlength := @length_le_deepest (Route.ofTemplates sources)
  have htree : ofRoutes (Route.ofTemplates sources) = build _ _ :=
    ofRoutes_eq_build fun _ => Route.tidy_of_mem
  use fun route => way (deepest (Route.ofTemplates sources))
    (remainders (Route.ofTemplates sources)) route.steps
  refine ⟨?_, ?_, ?_, ?_, duplicates_ofRoutes sources⟩
  · have hends := ends_build _ _ hlength
    rw [remainders, List.map_map, ← remainders] at hends
    rw [htree]
    apply hends
  · intro route hroute
    have hremainder := mem_remainders hroute
    apply spelled_way _ hremainder (hlength _ hremainder)
  · intro node hnode
    obtain ⟨depth, routes, rfl⟩ := hnode.exists_build _ _ htree
    apply literals_nodup
  · intro route hroute other hother
    have hremainder := mem_remainders hroute
    have hremainder' := mem_remainders hother
    rw [Route.shape_eq_iff (Route.tidy_of_mem hroute) (Route.tidy_of_mem hother)]
    apply way_eq_iff _ hremainder hremainder' (hlength _ hremainder) (hlength _ hremainder')

end RouteNode

end ServiceBindings
