import ServiceBindings.Proofs.Route.Soundness

/-!
# Exactness of routing

Resolving takes the first edge that fits and never goes back.  If no node of the tree has both
literal edges and a parameter edge, and each parameter ends at a slash or with its template, then
this finds exactly the routes whose templates the path matches.
-/

namespace ServiceBindings

/-! ### Captures that end at a slash -/

/-- Each capture is the last step or is followed by a slash. -/
def Separated : List Step → Prop
  | [] => True
  | .char _ :: steps => Separated steps
  | .capture _ :: steps => (∀ step, steps.head? = some step → step = .char '/') ∧ Separated steps

theorem Separated.drop {steps : List Step} (h : Separated steps) (count : Nat) :
  Separated (steps.drop count)
  := by
  induction count generalizing steps with
  | zero => apply h
  | succ count ih =>
      cases steps with
      | nil => apply h
      | cons step steps =>
          cases step with
          | char c =>
              have hsteps : Separated steps := h
              apply ih hsteps
          | capture name =>
              have hsteps : Separated steps := h.2
              apply ih hsteps

theorem separated_append_text (text : List Char) {steps : List Step} (h : Separated steps) :
  Separated (text.map .char ++ steps)
  := by
  induction text with
  | nil => apply h
  | cons c text ih => apply ih

/-- The steps of segments whose parameters are delimited are separated. -/
theorem Template.Delimited.separated {segments : List Segment} (h : Delimited segments) :
  Separated (segments.flatMap Segment.steps)
  := by
  induction segments with
  | nil => trivial
  | cons segment segments ih =>
      cases segment with
      | literal text => apply separated_append_text text (ih h)
      | parameter name =>
          obtain ⟨hends, hrest⟩ := h
          constructor
          · intro step hstep
            match segments with
            | .literal _ :: _ =>
                obtain ⟨text, rfl⟩ := List.head?_eq_some_iff.mp hends
                symm
                apply Option.some.inj hstep
          · apply ih hrest

/-- A capture that ends at a slash leads along exactly what comes before the next slash. -/
theorem Fits.capture_of_separated {name : String} {steps : List Step} {path : List Char}
    {own : List (String × List Char)} (hsteps : Separated (.capture name :: steps))
    (h : Fits (.capture name :: steps) path own) :
  path.takeWhile RouteNode.isCaptured ≠ []
    ∧ ∃ rest, own = (name, path.takeWhile RouteNode.isCaptured) :: rest
      ∧ Fits steps (path.dropWhile RouteNode.isCaptured) rest
  := by
  cases h with
  | @capture _ value _ rest own hvalue hrest =>
      have hcaptured : ∀ c ∈ value, RouteNode.isCaptured c = true := by
        intro c hc
        simp only [RouteNode.isCaptured, bne_iff_ne]
        rintro rfl
        apply hvalue.2 hc
      -- What follows the captured text is empty or starts with a slash.
      have hstop : rest.takeWhile RouteNode.isCaptured = []
          ∧ rest.dropWhile RouteNode.isCaptured = rest := by
        cases hrest with
        | nil => simp
        | char hrest =>
            obtain rfl := Step.char.inj (hsteps.1 _ rfl)
            simp [RouteNode.isCaptured]
        | capture _ hrest => cases hsteps.1 _ rfl
      rw [List.takeWhile_append_of_pos hcaptured, List.dropWhile_append_of_pos hcaptured, hstop.1,
        hstop.2, List.append_nil]
      use hvalue.1, own

namespace RouteNode

/-! ### Trees without ambiguous nodes -/

/-- `IsPart node tree`: a node is reached from the root of a tree by following edges. -/
inductive IsPart : RouteNode → RouteNode → Prop where
  | root (node : RouteNode) : IsPart node node
  | literal {node child tree : RouteNode} {text : List Char} :
      (text, child) ∈ tree.literals → IsPart node child → IsPart node tree
  | parameter {node child tree : RouteNode} {names : List String} :
      tree.parameter = some (names, child) → IsPart node child → IsPart node tree

/-- No node of a tree has both literal edges and a parameter edge. -/
def Unambiguous (tree : RouteNode) : Prop :=
  ∀ node, IsPart node tree → node.literals = [] ∨ node.parameter = none

mutual

/-- Checks that no node of a tree has both literal edges and a parameter edge. -/
def isUnambiguous : RouteNode → Bool
  | mk _ literals parameter =>
    (literals.isEmpty || parameter.isNone) && literalsUnambiguous literals
      && parameterUnambiguous parameter

/-- Checks the nodes below literal edges. -/
def literalsUnambiguous : List (List Char × RouteNode) → Bool
  | [] => true
  | (_, node) :: rest => isUnambiguous node && literalsUnambiguous rest

/-- Checks the nodes below a parameter edge. -/
def parameterUnambiguous : Option (List String × RouteNode) → Bool
  | none => true
  | some (_, node) => isUnambiguous node

end

theorem literalsUnambiguous_eq_true {edges : List (List Char × RouteNode)} :
  literalsUnambiguous edges = true ↔ ∀ edge ∈ edges, isUnambiguous edge.2 = true
  := by
  induction edges with
  | nil => simp [literalsUnambiguous]
  | cons edge edges ih =>
      obtain ⟨text, node⟩ := edge
      rw [literalsUnambiguous, Bool.and_eq_true_iff, ih, List.forall_mem_cons]

/-- A tree that passes the check is unambiguous. -/
theorem unambiguous_of_check {tree : RouteNode} (h : isUnambiguous tree = true) :
  Unambiguous tree
  := by
  intro node hnode
  induction hnode with
  | root =>
      obtain ⟨terminals, literals, parameter⟩ := node
      rw [isUnambiguous, Bool.and_eq_true_iff, Bool.and_eq_true_iff, Bool.or_eq_true_iff] at h
      simpa [RouteNode.literals, RouteNode.parameter] using h.1.1
  | @literal child tree text hedge _ ih =>
      obtain ⟨terminals, literals, parameter⟩ := tree
      rw [isUnambiguous, Bool.and_eq_true_iff, Bool.and_eq_true_iff] at h
      apply ih (literalsUnambiguous_eq_true.mp h.1.2 _ hedge)
  | @parameter child tree names hedge _ ih =>
      obtain ⟨terminals, literals, parameter⟩ := tree
      rw [isUnambiguous, Bool.and_eq_true_iff] at h
      obtain rfl : parameter = some (names, child) := hedge
      apply ih h.2

namespace Unambiguous

variable {depth : Nat} {routes : List Remainder}

/-- An unambiguous tree is unambiguous below its literal edges. -/
theorem literalEdge (h : Unambiguous (build (depth + 1) routes)) {c : Char}
    (hc : c ∈ firstChars routes) :
  Unambiguous (literalEdge depth routes c).2
  := by
  intro node hnode
  have hedge : RouteNode.literalEdge depth routes c ∈ (build (depth + 1) routes).literals :=
    List.mem_map_of_mem hc
  apply h node (IsPart.literal hedge hnode)

/-- An unambiguous tree is unambiguous below its parameter edge. -/
theorem afterCapture (h : Unambiguous (build (depth + 1) routes))
    (hcaptures : routes.filterMap nextCapture? ≠ []) :
  Unambiguous (build depth (afterCapture routes))
  := by
  intro node hnode
  apply h node (IsPart.parameter (parameter_build_of_captures depth hcaptures) hnode)

/-- Where some route of an unambiguous tree goes on with a character, none goes on with a
capture. -/
theorem captures_eq_nil (h : Unambiguous (build (depth + 1) routes)) {c : Char}
    (hc : c ∈ firstChars routes) :
  routes.filterMap nextCapture? = []
  := by
  obtain hnone | hnone := h _ (IsPart.root _)
  · rw [literals_build_succ, List.map_eq_nil_iff] at hnone
    rw [hnone] at hc
    cases hc
  · by_contra hcaptures
    rw [parameter_build_of_captures depth hcaptures] at hnone
    cases hnone

end Unambiguous

/-! ### Walks find what fits -/

/-- A remainder that fits a path goes on below the literal edge for the first character of the path,
or by a capture. -/
theorem fits_cons_cases (depth : Nat) {routes : List Remainder} {route : Remainder} {c : Char}
    {path : List Char} {own : List (String × List Char)} (hroute : route ∈ routes)
    (h : Fits route.2 (c :: path) own) :
  (route ∈ startingWith routes c ∧ ∃ rest, c :: path = (literalEdge depth routes c).1 ++ rest
      ∧ Fits (route.2.drop (literalEdge depth routes c).1.length) rest own)
    ∨ ∃ name steps, route.2 = .capture name :: steps
  := by
  obtain ⟨terminal, steps⟩ := route
  match steps with
  | [] => cases h
  | .capture name :: steps => right; use name, steps
  | .char _ :: steps =>
      left
      cases h with
      | char hrest =>
          have hgroup : (terminal, .char c :: steps) ∈ startingWith routes c :=
            mem_startingWith.mpr ⟨hroute, rfl⟩
          have hfits : Fits (.char c :: steps) (c :: path) own := Fits.char hrest
          have hsteps := steps_eq_sharedText hgroup
          simp only at hsteps
          rw [hsteps] at hfits
          obtain ⟨rest, hpath, hrest⟩ := Fits.of_append_text hfits
          use hgroup, rest, hpath, hrest

theorem mem_firstChars_of_mem {routes : List Remainder} {route : Remainder} {c : Char}
    (h : route ∈ startingWith routes c) :
  c ∈ firstChars routes
  := by
  rw [mem_firstChars]
  apply List.ne_nil_of_mem h

/-- A remainder is shorter below the literal edge for a character. -/
theorem length_advance_le {depth : Nat} {routes : List Remainder} {route : Remainder} {c : Char}
    (hc : c ∈ firstChars routes) (hlength : route.2.length ≤ depth + 1) :
  (advance (literalEdge depth routes c).1.length route).2.length ≤ depth
  := by
  obtain ⟨text, htext⟩ := List.head?_eq_some_iff.mp (literalEdge_head depth hc)
  rw [htext]
  simp only [advance, List.length_drop, List.length_cons]
  omega

/-- The remainders below the literal edge for a character are shorter. -/
theorem advance_shorter {depth : Nat} {routes : List Remainder} {c : Char}
    (hc : c ∈ firstChars routes)
    (hroutes : ∀ route ∈ routes, route.2.length ≤ depth + 1 ∧ Separated route.2) :
  ∀ route ∈ (startingWith routes c).map (advance (literalEdge depth routes c).1.length),
    route.2.length ≤ depth ∧ Separated route.2
  := by
  intro route hroute
  obtain ⟨before, hbefore, rfl⟩ := List.mem_map.mp hroute
  obtain ⟨hlength, hseparated⟩ := hroutes before (List.mem_of_mem_filter hbefore)
  constructor
  · apply length_advance_le hc hlength
  · apply hseparated.drop

/-- The remainders below the parameter edge are shorter. -/
theorem afterCapture_shorter {depth : Nat} {routes : List Remainder}
    (hroutes : ∀ route ∈ routes, route.2.length ≤ depth + 1 ∧ Separated route.2) :
  ∀ route ∈ afterCapture routes, route.2.length ≤ depth ∧ Separated route.2
  := by
  intro route hroute
  obtain ⟨⟨name, after⟩, hcapture, rfl⟩ := List.mem_map.mp hroute
  obtain ⟨⟨terminal, steps⟩, hbefore, hnext⟩ := List.mem_filterMap.mp hcapture
  match steps with
  | .capture _ :: steps =>
      obtain ⟨rfl, rfl⟩ := Prod.mk.inj (Option.some.inj hnext)
      obtain ⟨hlength, hseparated⟩ := hroutes _ hbefore
      constructor
      · apply Nat.le_of_succ_le_succ hlength
      · apply hseparated.2

/-- What is chosen below the literal edge for a character is what fits, if no route goes on with a
capture and it is so below the edge. -/
theorem chosenAfterText_iff {depth : Nat} {routes : List Remainder} {c : Char}
    {path rest : List Char} {chosen : List Step → Bool}
    (hcaptures : routes.filterMap nextCapture? = [])
    (hpath : c :: path = (literalEdge depth routes c).1 ++ rest)
    (hfits : ∀ route ∈ (startingWith routes c).map (advance (literalEdge depth routes c).1.length),
      (chosen route.2 = true ↔ ∃ own, Fits route.2 rest own)) :
  ∀ route ∈ routes,
    (chosenAfterText c (literalEdge depth routes c).1.length chosen route.2 = true
      ↔ ∃ own, Fits route.2 (c :: path) own)
  := by
  intro route hroute
  rw [chosenAfterText_eq_true]
  constructor
  · rintro ⟨hhead, hchosen⟩
    have hgroup := mem_startingWith.mpr ⟨hroute, hhead⟩
    obtain ⟨own, hown⟩ := (hfits _ (List.mem_map_of_mem hgroup)).mp hchosen
    use own
    rw [hpath]
    apply fits_literalEdge hgroup hown
  · rintro ⟨own, hown⟩
    obtain ⟨hgroup, rest', hpath', hrest⟩ | ⟨name, steps, hsteps⟩ :=
      fits_cons_cases depth hroute hown
    · obtain rfl := List.append_cancel_left (hpath.symm.trans hpath')
      use (mem_startingWith.mp hgroup).2
      apply (hfits _ (List.mem_map_of_mem hgroup)).mpr ⟨own, hrest⟩
    · have hcapture := mem_nextCaptures hroute hsteps
      rw [hcaptures] at hcapture
      cases hcapture

/-- What is chosen below the parameter edge is what fits, if only captures fit and it is so below
the edge. -/
theorem chosenAfterCapture_iff {routes : List Remainder} {path : List Char}
    {chosen : List Step → Bool} (hcaptured : path.takeWhile isCaptured ≠ [])
    (hcases : ∀ route ∈ routes, ∀ own, Fits route.2 path own →
      ∃ name steps, route.2 = .capture name :: steps)
    (hroutes : ∀ route ∈ routes, Separated route.2)
    (hfits : ∀ route ∈ afterCapture routes,
      (chosen route.2 = true ↔ ∃ own, Fits route.2 (path.dropWhile isCaptured) own)) :
  ∀ route ∈ routes, (chosenAfterCapture chosen route.2 = true ↔ ∃ own, Fits route.2 path own)
  := by
  intro route hroute
  rw [chosenAfterCapture_eq_true]
  constructor
  · rintro ⟨name, steps, hsteps, hchosen⟩
    have hcapture := mem_nextCaptures hroute hsteps
    obtain ⟨own, hown⟩ := (hfits _ (List.mem_map_of_mem hcapture)).mp hchosen
    use (name, path.takeWhile isCaptured) :: own
    rw [hsteps]
    apply fits_takeWhile hcaptured hown
  · rintro ⟨own, hown⟩
    obtain ⟨name, steps, hsteps⟩ := hcases route hroute own hown
    have hseparated := hroutes route hroute
    have hcapture := mem_nextCaptures hroute hsteps
    rw [hsteps] at hseparated hown
    obtain ⟨-, rest, -, hrest⟩ := hown.capture_of_separated hseparated
    use name, steps, hsteps
    apply (hfits _ (List.mem_map_of_mem hcapture)).mpr ⟨rest, hrest⟩

/-- Where no literal edge fits, only captures fit. -/
theorem capture_of_fits {depth : Nat} {routes : List Remainder} {c : Char} {path : List Char}
    (hfit : ¬(c ∈ firstChars routes ∧ ∃ rest, c :: path = (literalEdge depth routes c).1 ++ rest)) :
  ∀ route ∈ routes, ∀ own, Fits route.2 (c :: path) own →
    ∃ name steps, route.2 = .capture name :: steps
  := by
  intro route hroute own hown
  obtain ⟨hgroup, rest, hpath, -⟩ | hcapture := fits_cons_cases depth hroute hown
  · apply absurd ⟨mem_firstChars_of_mem hgroup, rest, hpath⟩ hfit
  · apply hcapture

/-- Where no literal edge fits and nothing can be captured, no route whose captures end at a slash
fits. -/
theorem not_fits_of_nowhere {depth : Nat} {routes : List Remainder} {c : Char} {path : List Char}
    (hfit : ¬(c ∈ firstChars routes ∧ ∃ rest, c :: path = (literalEdge depth routes c).1 ++ rest))
    (hnowhere : routes.filterMap nextCapture? = [] ∨ (c :: path).takeWhile isCaptured = [])
    {route : Remainder} {own : List (String × List Char)} (hroute : route ∈ routes)
    (hseparated : Separated route.2) :
  ¬Fits route.2 (c :: path) own
  := by
  intro hown
  obtain ⟨name, steps, hsteps⟩ := capture_of_fits hfit route hroute own hown
  have hcapture := mem_nextCaptures hroute hsteps
  rw [hsteps] at hseparated hown
  obtain hcaptures | hcaptured := hnowhere
  · apply List.ne_nil_of_mem hcapture hcaptures
  · apply (hown.capture_of_separated hseparated).1 hcaptured

/-- In an unambiguous tree of routes whose captures end at a slash, every walk ends at exactly the
routes that fit the path. -/
theorem Walks.chosen_iff_fits {depth : Nat} {routes : List Remainder} {path : List Char}
    {chosen : List Step → Bool} {more : List (String × List Char)}
    (h : Walks depth routes path chosen more) (htree : Unambiguous (build depth routes))
    (hroutes : ∀ route ∈ routes, route.2.length ≤ depth ∧ Separated route.2) :
  ∀ route ∈ routes, (chosen route.2 = true ↔ ∃ own, Fits route.2 path own)
  := by
  induction h with
  | finish depth routes =>
      intro route _
      rw [List.isEmpty_iff]
      constructor
      · intro hnil
        use []
        rw [hnil]
        apply Fits.nil
      · rintro ⟨own, h⟩
        apply h.steps_nil
  | leaf =>
      intro route hroute
      have hnil := List.length_eq_zero_iff.mp (Nat.le_zero.mp (hroutes route hroute).1)
      constructor
      · intro hchosen
        cases hchosen
      · rintro ⟨own, h⟩
        rw [hnil] at h
        cases h
  | literal hc hpath _ ih =>
      apply chosenAfterText_iff (htree.captures_eq_nil hc) hpath
      apply ih (htree.literalEdge hc) (advance_shorter hc hroutes)
  | parameter hfit hcaptures hcaptured _ ih =>
      apply chosenAfterCapture_iff hcaptured (capture_of_fits hfit)
        (fun route hroute => (hroutes route hroute).2)
      apply ih (htree.afterCapture hcaptures) (afterCapture_shorter hroutes)
  | nowhere hfit hnowhere =>
      intro route hroute
      constructor
      · intro hchosen
        cases hchosen
      · rintro ⟨own, hown⟩
        apply absurd hown (not_fits_of_nowhere hfit hnowhere hroute (hroutes route hroute).2)

/-- In an unambiguous tree of routes with delimited parameters, the answer is that of the routes
whose templates the path matches, in order. -/
theorem resolve_ofRoutes_exactly {routes : List Route}
    (htidy : ∀ route ∈ routes, Template.Tidy route.segments) (path : List Char)
    (hroutes : ∀ route ∈ routes, Template.Delimited route.segments)
    (htree : Unambiguous (ofRoutes routes)) :
  ∃ (chosen : Route → Bool) (more : List (String × List Char)),
    (∀ route ∈ routes, (chosen route = true ↔ route.Accepts path))
    ∧ ∀ verb, (ofRoutes routes).resolve verb path
        = choose verb more ((routes.filter chosen).map fun route => ⟨route.endpoint, route.verb⟩)
  := by
  rw [ofRoutes_eq_build htidy] at htree
  have hremainders : ∀ remainder ∈ remainders routes,
      remainder.2.length ≤ deepest routes ∧ Separated remainder.2 := by
    intro remainder hremainder
    use length_le_deepest remainder hremainder
    obtain ⟨route, hroute, rfl⟩ := List.mem_map.mp hremainder
    apply (hroutes route hroute).separated
  obtain ⟨chosen, more, hwalk⟩ := exists_walks (deepest routes) (remainders routes) path
  use fun route => chosen route.steps, more
  constructor
  · intro route hroute
    rw [hwalk.chosen_iff_fits htree hremainders _ (mem_remainders hroute), Route.exists_fits_iff]
  · apply hwalk.resolve htidy

/-- What is chosen among some routes is the first one of the method. -/
theorem choose_filter_ok {routes : List Route} {chosen : Route → Bool} {verb : Verb}
    {more : List (String × List Char)} {endpoint : Nat} :
  (∃ found, choose verb more
        ((routes.filter chosen).map fun route => ⟨route.endpoint, route.verb⟩) = .ok found
      ∧ found.endpoint = endpoint)
    ↔ ∃ earlier route later, routes = earlier ++ route :: later ∧ route.verb = verb
      ∧ chosen route = true ∧ route.endpoint = endpoint
      ∧ ∀ other ∈ earlier, other.verb = verb → ¬chosen other = true
  := by
  simp only [choose_eq_ok, List.find?_map, List.find?_filter, Option.map_eq_some_iff,
    List.find?_eq_some_iff_append, Function.comp_apply]
  constructor
  · rintro ⟨found, ⟨-, _, ⟨route, ⟨hroute, earlier, later, hroutes, hearlier⟩, rfl⟩, hendpoint⟩,
      rfl⟩
    rw [decide_eq_true_iff, decide_eq_true_iff] at hroute
    use earlier, route, later, hroutes, hroute.2, hroute.1, hendpoint
    intro other hother hverb hchosen
    simpa [hverb, hchosen] using hearlier other hother
  · rintro ⟨earlier, route, later, hroutes, hverb, hchosen, hendpoint, hearlier⟩
    use ⟨endpoint, more⟩
    refine ⟨⟨rfl, _, ⟨route, ⟨?_, earlier, later, hroutes, ?_⟩, rfl⟩, hendpoint⟩, rfl⟩
    · simp [hverb, hchosen]
    · intro other hother
      have hother := hearlier other hother
      by_cases hverb : other.verb = verb
      · simpa [hverb] using hother hverb
      · simp [hverb]

/-- Routing is exact.  If each parameter is delimited and no node of the tree has both literal edges
and a parameter edge, then a request is served by the first route of its method whose template the
path matches; the method is not allowed exactly if only routes of other methods match; and nothing
is found exactly if no route matches. -/
theorem resolve_exact (sources : List (Nat × Verb × String))
    (hroutes : ∀ route ∈ Route.ofTemplates sources, Template.Delimited route.segments)
    (htree : Unambiguous (ofRoutes (Route.ofTemplates sources))) (verb : Verb)
    (path : List Char) :
  (∀ endpoint,
    (∃ found, (ofRoutes (Route.ofTemplates sources)).resolve verb path = .ok found
      ∧ found.endpoint = endpoint)
    ↔ ∃ earlier route later, Route.ofTemplates sources = earlier ++ route :: later
      ∧ route.verb = verb ∧ route.Accepts path ∧ route.endpoint = endpoint
      ∧ ∀ other ∈ earlier, other.verb = verb → ¬other.Accepts path)
  ∧ ((ofRoutes (Route.ofTemplates sources)).resolve verb path = .error .methodNotAllowed
    ↔ (∃ route ∈ Route.ofTemplates sources, route.Accepts path)
      ∧ ∀ route ∈ Route.ofTemplates sources, route.Accepts path → route.verb ≠ verb)
  ∧ ((ofRoutes (Route.ofTemplates sources)).resolve verb path = .error .notFound
    ↔ ∀ route ∈ Route.ofTemplates sources, ¬route.Accepts path)
  := by
  obtain ⟨chosen, more, hchosen, hresolve⟩ :=
    resolve_ofRoutes_exactly (fun _ => Route.tidy_of_mem) path hroutes htree
  rw [hresolve]
  have hfilter : ∀ route, route ∈ (Route.ofTemplates sources).filter chosen
      ↔ route ∈ Route.ofTemplates sources ∧ route.Accepts path := by
    intro route
    rw [List.mem_filter]
    apply and_congr_right (hchosen route)
  refine ⟨?_, ?_, ?_⟩
  · intro endpoint
    rw [choose_filter_ok]
    apply exists_congr
    intro earlier
    apply exists_congr
    intro route
    apply exists_congr
    intro later
    apply and_congr_right
    intro hsources
    rw [hchosen route (by simp [hsources])]
    have hearlier : ∀ other ∈ earlier, (chosen other = true ↔ other.Accepts path) := by
      intro other hother
      apply hchosen other
      simp [hsources, hother]
    simp +contextual only [hearlier]
  · rw [choose_eq_methodNotAllowed, ne_eq, List.map_eq_nil_iff, List.eq_nil_iff_forall_not_mem]
    simp only [hfilter, List.forall_mem_map, not_forall, not_not, and_imp]
  · rw [choose_eq_notFound, List.map_eq_nil_iff, List.eq_nil_iff_forall_not_mem]
    simp only [hfilter, not_and]

/-- Of four routes, the path fits two of the method, and it is served by the first of them. -/
theorem resolve_exact_pets :
  ∃ found, (ofRoutes (Route.ofTemplates [(0, .get, "/pets"), (1, .get, "/pets/\x7bname\x7d"),
      (2, .get, "/pets/\x7bid\x7d"), (3, .get, "/pets/\x7bid\x7d/toys")])).resolve .get
        "/pets/7".toList = .ok found
    ∧ found.endpoint = 1
  := by
  apply ((resolve_exact _ (by decide +kernel)
    (unambiguous_of_check (by decide +kernel)) _ _).1 1).mpr
  use [Route.ofTemplate 0 .get "/pets"], Route.ofTemplate 1 .get "/pets/\x7bname\x7d",
    [Route.ofTemplate 2 .get "/pets/\x7bid\x7d", Route.ofTemplate 3 .get "/pets/\x7bid\x7d/toys"]
  have hpets : (Route.ofTemplate 0 .get "/pets").segments = [.literal "/pets".toList] := by
    decide +kernel
  have hname : (Route.ofTemplate 1 .get "/pets/\x7bname\x7d").segments
      = [.literal "/pets/".toList, .parameter "name".toList] := by
    decide +kernel
  refine ⟨rfl, rfl, ⟨[['7']], ?_, ?_⟩, rfl, ?_⟩
  · rw [List.forall_mem_singleton]
    constructor <;> decide
  · rw [hname]
    decide +kernel
  · rintro other hother -
    obtain rfl := List.mem_singleton.mp hother
    rintro ⟨values, -, hfill⟩
    rw [hpets] at hfill
    cases values with
    | nil => revert hfill; decide +kernel
    | cons => simp [Template.fill] at hfill

end RouteNode

end ServiceBindings
