import ServiceBindings.Proofs.Route.Outline

/-!
# Soundness of routing

A request is only served by an endpoint whose template its path matches, and what is bound on the
way includes the parameters of that template.
-/

namespace ServiceBindings

namespace RouteNode

/-- What is captured from a path is capturable. -/
theorem capturable_takeWhile {path : List Char} (h : path.takeWhile isCaptured ≠ []) :
  Capturable (path.takeWhile isCaptured)
  := by
  constructor
  · apply h
  · intro hmem
    have hcaptured := List.all_eq_true.mp List.all_takeWhile '/' hmem
    simp [isCaptured] at hcaptured

/-- A capture leads along what comes before the next slash. -/
theorem fits_takeWhile {name : String} {steps : List Step} {path : List Char}
    {own : List (String × List Char)} (h : path.takeWhile isCaptured ≠ [])
    (hrest : Fits steps (path.dropWhile isCaptured) own) :
  Fits (.capture name :: steps) path ((name, path.takeWhile isCaptured) :: own)
  := by
  have hfits : Fits (.capture name :: steps)
      (path.takeWhile isCaptured ++ path.dropWhile isCaptured)
      ((name, path.takeWhile isCaptured) :: own) := Fits.capture (capturable_takeWhile h) hrest
  rw [List.takeWhile_append_dropWhile] at hfits
  apply hfits

/-- A remainder that fits below the literal edge for a character fits above it. -/
theorem fits_literalEdge {depth : Nat} {routes : List Remainder} {route : Remainder} {c : Char}
    {rest : List Char} {own : List (String × List Char)} (hgroup : route ∈ startingWith routes c)
    (h : Fits (advance (literalEdge depth routes c).1.length route).2 rest own) :
  Fits route.2 ((literalEdge depth routes c).1 ++ rest) own
  := by
  rw [steps_eq_sharedText hgroup]
  apply Fits.append_text _ h

theorem mem_nextCaptures {routes : List Remainder} {route : Remainder} {name : String}
    {steps : List Step} (h : route ∈ routes) (hsteps : route.2 = .capture name :: steps) :
  (name, route.1, steps) ∈ routes.filterMap nextCapture?
  := by
  obtain ⟨terminal, _⟩ := route
  rw [List.mem_filterMap]
  use (terminal, .capture name :: steps), hsteps ▸ h
  rfl

/-- Every walk ends at routes that fit the path, and binds what is bound along these routes. -/
theorem Walks.fits {depth : Nat} {routes : List Remainder} {path : List Char}
    {chosen : List Step → Bool} {more : List (String × List Char)}
    (h : Walks depth routes path chosen more) :
  ∀ route ∈ routes, chosen route.2 = true →
    ∃ own, Fits route.2 path own ∧ more = boundAlong routes route.2 (own.map (·.2))
  := by
  induction h with
  | finish depth routes =>
      intro route _ hchosen
      use []
      rw [List.isEmpty_iff.mp hchosen]
      use Fits.nil
      rfl
  | leaf =>
      intro route _ hchosen
      cases hchosen
  | @literal depth routes c path rest chosen more _ hpath _ ih =>
      intro route hroute hchosen
      obtain ⟨hhead, hchosen⟩ := chosenAfterText_eq_true.mp hchosen
      have hgroup := mem_startingWith.mpr ⟨hroute, hhead⟩
      obtain ⟨own, hown, hmore⟩ := ih _ (List.mem_map_of_mem hgroup) hchosen
      use own
      constructor
      · rw [hpath]
        apply fits_literalEdge hgroup hown
      · rw [boundAlong_literalEdge hgroup]
        apply hmore
  | @parameter depth routes c path chosen more _ _ hcaptured _ ih =>
      intro route hroute hchosen
      obtain ⟨name, steps, hsteps, hchosen⟩ := chosenAfterCapture_eq_true.mp hchosen
      have hcapture := mem_nextCaptures hroute hsteps
      obtain ⟨own, hown, hmore⟩ := ih _ (List.mem_map_of_mem hcapture) hchosen
      use (name, (c :: path).takeWhile isCaptured) :: own
      constructor
      · rw [hsteps]
        apply fits_takeWhile hcaptured hown
      · rw [hsteps, hmore]
        rfl
  | nowhere =>
      intro route _ hchosen
      cases hchosen

/-- The tree of some routes answers with those of them that a walk along the path ends at; these fit
the path, and what is bound is bound along each of them. -/
theorem resolve_ofRoutes_along {routes : List Route}
    (htidy : ∀ route ∈ routes, Template.Tidy route.segments) (path : List Char) :
  ∃ (fitting : List Route) (more : List (String × List Char)), fitting.Sublist routes
    ∧ (∀ route ∈ fitting, ∃ own, Fits route.steps path own
        ∧ more = boundAlong (remainders routes) route.steps (own.map (·.2)))
    ∧ ∀ verb, (ofRoutes routes).resolve verb path
        = choose verb more (fitting.map fun route => ⟨route.endpoint, route.verb⟩)
  := by
  obtain ⟨chosen, more, hwalk⟩ := exists_walks (deepest routes) (remainders routes) path
  use routes.filter (fun route => chosen route.steps), more, List.filter_sublist
  constructor
  · intro route hroute
    obtain ⟨hroute, hchosen⟩ := List.mem_filter.mp hroute
    apply hwalk.fits _ (mem_remainders hroute) hchosen
  · apply hwalk.resolve htidy

/-- The routes that a walk along the path ends at fit the path, and at least what they bind by
themselves is bound. -/
theorem resolve_ofRoutes {routes : List Route}
    (htidy : ∀ route ∈ routes, Template.Tidy route.segments) (path : List Char) :
  ∃ (fitting : List Route) (more : List (String × List Char)), fitting.Sublist routes
    ∧ (∀ route ∈ fitting, ∃ own, Fits route.steps path own ∧ own.Sublist more)
    ∧ ∀ verb, (ofRoutes routes).resolve verb path
        = choose verb more (fitting.map fun route => ⟨route.endpoint, route.verb⟩)
  := by
  obtain ⟨fitting, more, hfitting, hfits, hresolve⟩ := resolve_ofRoutes_along htidy path
  use fitting, more, hfitting
  constructor
  · intro route hroute
    obtain ⟨own, hown, rfl⟩ := hfits route hroute
    use own, hown
    apply sublist_boundAlong (mem_remainders (hfitting.subset hroute)) hown
  · apply hresolve

/-! ### What is chosen -/

theorem choose_eq_ok {verb : Verb} {bindings : List (String × List Char)}
    {terminals : List Terminal} {found : RouteMatch} :
  choose verb bindings terminals = .ok found ↔ found.bindings = bindings
    ∧ ∃ terminal, (terminals.find? fun terminal => terminal.verb = verb) = some terminal
      ∧ terminal.endpoint = found.endpoint
  := by
  obtain ⟨endpoint, own⟩ := found
  rw [choose]
  by_cases hempty : terminals.isEmpty
  · rw [if_pos hempty, List.isEmpty_iff.mp hempty]
    simp
  · rw [if_neg hempty]
    cases hfind : terminals.find? fun terminal => terminal.verb = verb with
    | none => simp
    | some terminal => simp [and_comm, eq_comm]

theorem choose_eq_methodNotAllowed {verb : Verb} {bindings : List (String × List Char)}
    {terminals : List Terminal} :
  choose verb bindings terminals = .error .methodNotAllowed
    ↔ terminals ≠ [] ∧ ∀ terminal ∈ terminals, terminal.verb ≠ verb
  := by
  rw [choose]
  by_cases hempty : terminals.isEmpty
  · simp [List.isEmpty_iff.mp hempty]
  · rw [if_neg hempty]
    cases hfind : terminals.find? fun terminal => terminal.verb = verb with
    | none =>
        have hne : terminals ≠ [] := List.isEmpty_iff.not.mp hempty
        simpa [hne] using List.find?_eq_none.mp hfind
    | some terminal =>
        have hverb : terminal.verb = verb := by simpa using List.find?_some hfind
        constructor
        · intro h
          cases h
        · rintro ⟨-, hverbs⟩
          apply absurd hverb (hverbs terminal (List.mem_of_find?_eq_some hfind))

theorem choose_eq_notFound {verb : Verb} {bindings : List (String × List Char)}
    {terminals : List Terminal} :
  choose verb bindings terminals = .error .notFound ↔ terminals = []
  := by
  rw [choose]
  by_cases hempty : terminals.isEmpty
  · simp [List.isEmpty_iff.mp hempty]
  · rw [if_neg hempty, ← List.isEmpty_iff]
    cases terminals.find? fun terminal => terminal.verb = verb with
    | none => simp [hempty]
    | some terminal => simp [hempty]

/-- Routing is sound.  An endpoint that serves a request belongs to a route of the method whose
template becomes the path when its parameters are replaced by capturable texts, and these are bound
to the names of the parameters.  If the method is not allowed, then the path matches the template of
a route of another method. -/
theorem resolve_sound (sources : List (Nat × Verb × String)) (verb : Verb) (path : List Char) :
  (∀ found, (ofRoutes (Route.ofTemplates sources)).resolve verb path = .ok found →
    ∃ route ∈ Route.ofTemplates sources, route.endpoint = found.endpoint ∧ route.verb = verb
      ∧ ∃ values : List (List Char), (∀ value ∈ values, Capturable value)
        ∧ Template.fill route.segments values = some path
        ∧ ((Template.parameterNames route.segments).zip values).Sublist found.bindings)
  ∧ ((ofRoutes (Route.ofTemplates sources)).resolve verb path = .error .methodNotAllowed →
    ∃ route ∈ Route.ofTemplates sources, route.verb ≠ verb ∧ route.Accepts path)
  := by
  obtain ⟨fitting, more, hfitting, hfits, hresolve⟩ :=
    resolve_ofRoutes (fun route => @Route.tidy_of_mem sources route) path
  constructor
  · intro found hfound
    rw [hresolve] at hfound
    obtain ⟨hbindings, terminal, hfind, hendpoint⟩ := choose_eq_ok.mp hfound
    obtain ⟨route, hroute, rfl⟩ := List.mem_map.mp (List.mem_of_find?_eq_some hfind)
    obtain ⟨own, hown, hmore⟩ := hfits route hroute
    obtain ⟨values, hvalues, hfill, rfl⟩ := Template.exists_fill_of_fits hown
    use route, hfitting.subset hroute, hendpoint
    constructor
    · simpa using List.find?_some hfind
    · use values, hvalues, hfill
      rw [hbindings]
      apply hmore
  · intro hfailure
    rw [hresolve] at hfailure
    obtain ⟨hne, hverbs⟩ := choose_eq_methodNotAllowed.mp hfailure
    obtain ⟨route, hroute⟩ := List.exists_mem_of_ne_nil fitting (by simpa using hne)
    obtain ⟨own, hown, -⟩ := hfits route hroute
    use route, hfitting.subset hroute
    constructor
    · apply hverbs _ (List.mem_map_of_mem hroute)
    · apply (Route.exists_fits_iff route path).mp ⟨own, hown⟩

/-- A request below a shared parameter edge, which binds the names of both routes. -/
theorem resolve_sound_toys :
  ∃ route ∈ Route.ofTemplates [(0, .get, "/pets/\x7bid\x7d"), (1, .put, "/pets/\x7bname\x7d/toys")],
    route.endpoint = 1 ∧ route.verb = .put
      ∧ ∃ values : List (List Char), (∀ value ∈ values, Capturable value)
        ∧ Template.fill route.segments values = some "/pets/7/toys".toList
        ∧ ((Template.parameterNames route.segments).zip values).Sublist
            [("id", ['7']), ("name", ['7'])]
  := (resolve_sound _ _ _).1 ⟨1, [("id", ['7']), ("name", ['7'])]⟩ (by decide +kernel)

end RouteNode

end ServiceBindings
