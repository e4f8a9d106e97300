import ServiceBindings.Proofs.Route.Contents
import ServiceBindings.Proofs.Route.Diversion

/-!
# Routes that are served

A route may never be found: a capture goes on to the next slash, so nothing can follow a parameter
but a slash, and of two routes of the same method and shape the first one takes all requests.  There
is no other reason.  If a character is in no template, then a path that has it for all parameters is
not diverted, so it leads to the end of its route.
-/

namespace ServiceBindings

/-! ### Captures of served routes -/

/-- Steps that lead along what is left at a slash start with it. -/
theorem Fits.head?_of_dropWhile {steps : List Step} {path : List Char}
    {own : List (String × List Char)} (h : Fits steps (path.dropWhile RouteNode.isCaptured) own)
    {step : Step} (hstep : steps.head? = some step) :
  step = .char '/'
  := by
  have hstop : ∀ c rest, path.dropWhile RouteNode.isCaptured = c :: rest → c = '/' := by
    intro c rest hpath
    have hhead := List.head?_dropWhile_not RouteNode.isCaptured path
    simpa [hpath, RouteNode.isCaptured] using hhead
  generalize path.dropWhile RouteNode.isCaptured = rest at h hstop
  cases h with
  | nil => cases hstep
  | @char c steps rest own _ =>
      rw [← Option.some.inj hstep, hstop c rest rfl]
  | @capture name value steps rest own hvalue _ =>
      obtain ⟨hne, hslash⟩ := hvalue
      obtain ⟨c, value, rfl⟩ := List.exists_cons_of_ne_nil hne
      obtain rfl := hstop c (value ++ rest) rfl
      apply absurd List.mem_cons_self hslash

/-- Tidy segments whose steps are separated have delimited parameters. -/
theorem Template.Tidy.delimited {segments : List Segment} (h : Tidy segments)
    (hseparated : Separated (segments.flatMap Segment.steps)) :
  Delimited segments
  := by
  induction segments with
  | nil => trivial
  | cons segment segments ih =>
      cases segment with
      | literal text =>
          obtain ⟨-, -, hrest⟩ := h
          apply ih hrest
          have hdrop := hseparated.drop text.length
          rw [List.flatMap_cons, Segment.steps, List.drop_left' (List.length_map _)] at hdrop
          apply hdrop
      | parameter name =>
          have htidy : Tidy segments := h
          obtain ⟨hhead, hrest⟩ := hseparated
          use ?_, ih htidy hrest
          cases segments with
          | nil => trivial
          | cons next segments =>
              cases next with
              | parameter other => cases hhead _ rfl
              | literal text =>
                  obtain ⟨c, text, rfl⟩ := List.exists_cons_of_ne_nil htidy.1
                  obtain rfl := Step.char.inj (hhead (.char c) rfl)
                  rfl

theorem Template.flatMap_closeLiteral (text : List Char) (rest : List Segment) :
  (closeLiteral text rest).flatMap Segment.steps
    = text.map .char ++ rest.flatMap Segment.steps
  := by
  unfold closeLiteral
  split
  case isTrue htext =>
    rw [List.isEmpty_iff.mp htext]
    rfl
  case isFalse => rfl

/-- A character among the steps of a text is in the text. -/
theorem Template.mem_of_char_mem_scan {z : Char} {inside : Bool} {part cs : List Char}
    (h : .char z ∈ (scan inside part cs).flatMap Segment.steps) :
  z ∈ part ∨ z ∈ cs
  := by
  induction cs generalizing inside part with
  | nil =>
      cases inside with
      | true => simp [scan, Segment.steps] at h
      | false => simpa [scan, flatMap_closeLiteral] using h
  | cons c cs ih =>
      cases inside with
      | true =>
          rw [scan, if_pos rfl] at h
          split at h
          case isTrue =>
            have hrest : .char z ∈ (scan false [] cs).flatMap Segment.steps := by
              simpa [Segment.steps] using h
            right
            apply List.mem_cons_of_mem
            simpa using ih hrest
          case isFalse =>
            simpa [or_assoc] using ih h
      | false =>
          rw [scan, if_neg Bool.false_ne_true] at h
          split at h
          case isTrue =>
            rw [flatMap_closeLiteral, List.mem_append] at h
            obtain hpart | hrest := h
            · left
              simpa using hpart
            · right
              apply List.mem_cons_of_mem
              simpa using ih hrest
          case isFalse =>
            simpa [or_assoc] using ih h

/-- Steps lead along a path that has the same character for all captures. -/
theorem exists_fits_constant {z : Char} (hz : z ≠ '/') (steps : List Step) :
  ∃ path own, Fits steps path own ∧ ∀ pair ∈ own, pair.2 = [z]
  := by
  induction steps with
  | nil => use [], [], Fits.nil, by simp
  | cons step steps ih =>
      obtain ⟨path, own, hfits, hown⟩ := ih
      cases step with
      | char c => use c :: path, own, Fits.char hfits
      | capture name =>
          have hvalue : Capturable [z] := by
            constructor
            · simp
            · simpa using hz.symm
          use [z] ++ path, (name, [z]) :: own, Fits.capture hvalue hfits
          simpa using hown

/-- A character that no template has is not among the steps of their routes. -/
theorem Route.char_not_mem_steps {sources : List (Nat × Verb × String)} {z : Char}
    (hfresh : ∀ source ∈ sources, z ∉ source.2.2.toList) :
  ∀ route ∈ ofTemplates sources, .char z ∉ route.steps
  := by
  intro route hroute hmem
  obtain ⟨⟨endpoint, verb, template⟩, hsource, rfl⟩ := List.mem_map.mp hroute
  obtain hpart | htemplate := Template.mem_of_char_mem_scan hmem
  · cases hpart
  · apply hfresh _ hsource htemplate

theorem Route.overlap_eq_true {first second : Route} :
  first.overlap second = true ↔ first.verb = second.verb ∧ first.shape = second.shape
  := by
  rw [overlap, Bool.and_eq_true_iff, decide_eq_true_iff, decide_eq_true_iff]

/-- If the endpoints of routes are different, then the endpoint of one of them is a later one of
overlapping routes exactly if an earlier route overlaps that one. -/
theorem Route.exists_mem_overlaps_iff {routes earlier later : List Route} {route : Route}
    (hroutes : routes = earlier ++ route :: later) (hendpoints : (routes.map (·.endpoint)).Nodup) :
  (∃ pair ∈ overlaps routes, pair.2.endpoint = route.endpoint)
    ↔ ∃ other ∈ earlier, other.overlap route = true
  := by
  constructor
  · rintro ⟨_, hpair, hendpoint⟩
    obtain ⟨⟨first, second⟩, hrepeats, rfl⟩ := List.mem_map.mp hpair
    obtain ⟨before, after, hsplit, hfind⟩ := mem_repeats.mp hrepeats
    obtain rfl : second = route := by
      apply List.inj_on_of_nodup_map hendpoints _ _ hendpoint
      · simp [hsplit]
      · simp [hroutes]
    -- The route stands at one place only, so what is in front of it is the same.
    have hnodup := hendpoints.of_map
    rw [hroutes, List.nodup_append, List.nodup_cons] at hnodup
    obtain ⟨-, ⟨hlater, -⟩, hearlier⟩ := hnodup
    have hplace := (List.append_cons_inj_of_notMem (fun h => hearlier _ h _ List.mem_cons_self rfl)
      hlater).mp (hroutes.symm.trans hsplit)
    obtain rfl := hplace.1
    have hoverlap := List.find?_some hfind
    use first, List.mem_of_find?_eq_some hfind, hoverlap
  · rintro ⟨other, hother, hoverlap⟩
    have hsome : (earlier.find? (overlap · route)).isSome :=
      List.find?_isSome.mpr ⟨other, hother, hoverlap⟩
    obtain ⟨first, hfirst⟩ := Option.isSome_iff_exists.mp hsome
    have hrepeats : (first, route) ∈ repeats overlap [] routes :=
      mem_repeats.mpr ⟨earlier, later, hroutes, hfirst⟩
    use (first.terminal, route.terminal), List.mem_map_of_mem hrepeats
    rfl

namespace RouteNode

variable {depth : Nat} {routes : List Remainder} {route : Remainder} {path : List Char}
  {chosen : List Step → Bool} {more : List (String × List Char)}

/-- A walk only ends at routes whose captures end at a slash. -/
theorem Walks.separated (h : Walks depth routes path chosen more) (hroute : route ∈ routes)
    (hchosen : chosen route.2 = true) :
  Separated route.2
  := by
  induction h generalizing route with
  | finish =>
      rw [List.isEmpty_iff.mp hchosen]
      trivial
  | leaf => cases hchosen
  | @literal depth routes c _ _ _ _ _ _ _ ih =>
      obtain ⟨hhead, hchosen⟩ := chosenAfterText_eq_true.mp hchosen
      have hgroup := mem_startingWith.mpr ⟨hroute, hhead⟩
      rw [steps_eq_sharedText hgroup]
      apply separated_append_text
      apply ih (List.mem_map_of_mem hgroup) hchosen
  | parameter _ _ _ hwalk ih =>
      obtain ⟨name, steps, hsteps, hchosen⟩ := chosenAfterCapture_eq_true.mp hchosen
      have hcapture := mem_nextCaptures hroute hsteps
      obtain ⟨own, hown, -⟩ := hwalk.fits _ (List.mem_map_of_mem hcapture) hchosen
      rw [hsteps]
      constructor
      · intro step hstep
        apply hown.head?_of_dropWhile hstep
      · apply ih (List.mem_map_of_mem hcapture) hchosen
  | nowhere => cases hchosen

/-! ### Paths that are not diverted -/

/-- A path that has a character for all captures which no route has is not diverted. -/
theorem not_diverts_of_fresh {z : Char} {steps : List Step} {own : List (String × List Char)}
    (hroutes : ∀ route ∈ routes, .char z ∉ route.2) (hseparated : Separated steps)
    (hfits : Fits steps path own) (hown : ∀ pair ∈ own, pair.2 = [z]) :
  ¬Diverts (build depth routes) steps path
  := by
  induction depth generalizing routes steps path own with
  | zero =>
      rintro (⟨hedge, -⟩ | ⟨hedge, -, -, -⟩ | ⟨hparameter, -⟩)
      · cases hedge
      · cases hedge
      · cases hparameter
  | succ depth ih =>
      rintro (⟨hedge, hinitial⟩ | ⟨hedge, rfl, rfl, hdiverts⟩ | ⟨hparameter, hdiverts⟩)
      · obtain ⟨c, hc, rfl⟩ := List.mem_map.mp hedge
        obtain ⟨text, htext⟩ := List.head?_eq_some_iff.mp (literalEdge_head depth hc)
        obtain ⟨other, hother⟩ := List.exists_mem_of_ne_nil _ (mem_firstChars.mp hc)
        obtain ⟨hother, hhead⟩ := mem_startingWith.mp hother
        -- The path goes on with the character, so the edge is for it.
        obtain ⟨-, rest, rfl, -⟩ := hfits.capture_of_separated hseparated
        have hvalue : path.takeWhile isCaptured = [z] := hown _ List.mem_cons_self
        have hpath := List.takeWhile_append_dropWhile (p := isCaptured) (l := path)
        have hstart : (literalEdge depth routes c).1 <+: path := hinitial
        rw [htext, ← hpath, hvalue] at hstart
        obtain ⟨rfl, -⟩ := List.cons_prefix_cons.mp hstart
        apply hroutes other hother (List.mem_of_mem_head? hhead)
      · obtain ⟨c, hc, hpair⟩ := List.mem_map.mp hedge
        obtain ⟨rfl, rfl⟩ := Prod.mk.inj hpair
        obtain ⟨after, hpath, hrest⟩ := Fits.of_append_text hfits
        obtain rfl := List.append_cancel_left hpath
        apply ih _ _ hrest hown hdiverts
        · intro route hroute hmem
          obtain ⟨before, hbefore, rfl⟩ := List.mem_map.mp hroute
          apply hroutes before (List.mem_of_mem_filter hbefore) (List.mem_of_mem_drop hmem)
        · have hdrop := hseparated.drop (sharedText (startingWith routes c)).length
          rw [List.drop_left' (List.length_map _)] at hdrop
          apply hdrop
      · obtain ⟨-, rfl, rfl⟩ := parameter_build_eq_some hparameter
        obtain ⟨-, rest, rfl, hrest⟩ := hfits.capture_of_separated hseparated
        apply ih _ hseparated.2 hrest (fun pair hpair => hown pair (List.mem_cons_of_mem _ hpair))
          hdiverts
        intro route hroute hmem
        obtain ⟨name, hbefore⟩ := mem_afterCapture.mp hroute
        apply hroutes _ hbefore (List.mem_cons_of_mem _ hmem)

/-- A walk ends at a separated route, for some path, if there is a character that no template
has. -/
theorem exists_walks_chosen {sources : List Route} {route : Route} {z : Char} (hz : z ≠ '/')
    (hfresh : ∀ route ∈ sources, .char z ∉ route.steps) (hroute : route ∈ sources)
    (hseparated : Separated route.steps) :
  ∃ path chosen more, Walks (deepest sources) (remainders sources) path chosen more
    ∧ chosen route.steps = true
  := by
  have hremainders : ∀ remainder ∈ remainders sources, .char z ∉ remainder.2 := by
    intro remainder hremainder
    obtain ⟨other, hother, rfl⟩ := List.mem_map.mp hremainder
    apply hfresh other hother
  have hremainder := mem_remainders hroute
  obtain ⟨path, own, hfits, hown⟩ := exists_fits_constant hz route.steps
  obtain ⟨chosen, more, hwalk⟩ := exists_walks (deepest sources) (remainders sources) path
  use path, chosen, more, hwalk
  apply hwalk.chosen_of_not_diverts hremainder (length_le_deepest _ hremainder) hseparated hfits
  apply not_diverts_of_fresh hremainders hseparated hfits hown

/-- Which routes are served.  If the endpoints of templates are different, and a character other
than the slash is in none of them, then an endpoint is found for some request exactly if each
parameter of its template stands at the end or before a slash, and no duplicate lists it after
another route. -/
theorem served_iff (sources : List (Nat × Verb × String)) (hendpoints : (sources.map (·.1)).Nodup)
    (z : Char) (hz : z ≠ '/') (hfresh : ∀ source ∈ sources, z ∉ source.2.2.toList) (route : Route)
    (hroute : route ∈ Route.ofTemplates sources) :
  (∃ verb path found, (ofRoutes (Route.ofTemplates sources)).resolve verb path = .ok found
      ∧ found.endpoint = route.endpoint)
    ↔ Template.Delimited route.segments
      ∧ ¬∃ pair ∈ (ofRoutes (Route.ofTemplates sources)).duplicates,
          pair.2.endpoint = route.endpoint
  := by
  have hnodup : ((Route.ofTemplates sources).map (·.endpoint)).Nodup := by
    rw [Route.ofTemplates, List.map_map]
    apply hendpoints
  simp only [(duplicates_ofRoutes sources).mem_iff]
  constructor
  · rintro ⟨verb, path, found, hfound, hendpoint⟩
    obtain ⟨chosen, more, hwalk⟩ := exists_walks (deepest (Route.ofTemplates sources))
      (remainders (Route.ofTemplates sources)) path
    rw [hwalk.resolve fun _ => Route.tidy_of_mem] at hfound
    obtain ⟨earlier, first, later, hroutes, hverb, hchosen, hfirst, hearlier⟩ :=
      choose_filter_ok.mp ⟨found, hfound, hendpoint⟩
    have hmem : first ∈ Route.ofTemplates sources := by
      rw [hroutes]
      simp
    obtain rfl := List.inj_on_of_nodup_map hnodup hmem hroute hfirst
    constructor
    · apply (Route.tidy_of_mem hroute).delimited
      apply hwalk.separated (mem_remainders hroute) hchosen
    · rw [Route.exists_mem_overlaps_iff hroutes hnodup]
      rintro ⟨other, hother, hoverlap⟩
      obtain ⟨hsame, hshape⟩ := Route.overlap_eq_true.mp hoverlap
      have hother' : other ∈ Route.ofTemplates sources := by
        rw [hroutes]
        apply List.mem_append_left _ hother
      apply hearlier other hother (hsame.trans hverb)
      apply (hwalk.shape_alike hroute hother' hchosen).mpr hshape
  · rintro ⟨hdelimited, hshadowed⟩
    obtain ⟨path, chosen, more, hwalk, hchosen⟩ :=
      exists_walks_chosen hz (Route.char_not_mem_steps hfresh) hroute hdelimited.separated
    obtain ⟨earlier, later, hroutes⟩ := List.append_of_mem hroute
    rw [Route.exists_mem_overlaps_iff hroutes hnodup] at hshadowed
    use route.verb, path
    rw [hwalk.resolve fun _ => Route.tidy_of_mem]
    apply choose_filter_ok.mpr
    use earlier, route, later, hroutes, rfl, hchosen, rfl
    intro other hother hverb hchosen'
    have hother' : other ∈ Route.ofTemplates sources := by
      rw [hroutes]
      apply List.mem_append_left _ hother
    have hshape := (hwalk.shape_alike hroute hother' hchosen).mp hchosen'
    apply hshadowed ⟨other, hother, Route.overlap_eq_true.mpr ⟨hverb, hshape⟩⟩

/-- Of four routes, one is served next to a literal edge that the same path could start with, one
comes after a route of the same shape, and one has a parameter before a dot. -/
theorem served_iff_pets :
  (∃ verb path found, (ofRoutes (Route.ofTemplates [(0, .get, "/pets/mine"),
      (1, .get, "/pets/\x7bid\x7d"), (2, .get, "/pets/\x7bname\x7d"),
      (3, .put, "/pets/\x7bid\x7d.json")])).resolve verb path = .ok found ∧ found.endpoint = 1)
    ∧ (¬∃ verb path found, (ofRoutes (Route.ofTemplates [(0, .get, "/pets/mine"),
      (1, .get, "/pets/\x7bid\x7d"), (2, .get, "/pets/\x7bname\x7d"),
      (3, .put, "/pets/\x7bid\x7d.json")])).resolve verb path = .ok found ∧ found.endpoint = 2)
    ∧ ¬∃ verb path found, (ofRoutes (Route.ofTemplates [(0, .get, "/pets/mine"),
      (1, .get, "/pets/\x7bid\x7d"), (2, .get, "/pets/\x7bname\x7d"),
      (3, .put, "/pets/\x7bid\x7d.json")])).resolve verb path = .ok found ∧ found.endpoint = 3
  := by
  have hserved := served_iff [(0, .get, "/pets/mine"), (1, .get, "/pets/\x7bid\x7d"),
    (2, .get, "/pets/\x7bname\x7d"), (3, .put, "/pets/\x7bid\x7d.json")] (by decide) 'z' (by decide)
    (by decide +kernel)
  refine ⟨?_, ?_, ?_⟩
  · apply (hserved (Route.ofTemplate 1 .get "/pets/\x7bid\x7d") (by decide +kernel)).mpr
    decide +kernel
  · apply (hserved (Route.ofTemplate 2 .get "/pets/\x7bname\x7d") (by decide +kernel)).not.mpr
    decide +kernel
  · apply (hserved (Route.ofTemplate 3 .put "/pets/\x7bid\x7d.json") (by decide +kernel)).not.mpr
    decide +kernel

end RouteNode

end ServiceBindings
