import ServiceBindings.Proofs.Route.Soundness

/-!
# The last binding of a name

A walk binds all names that routes have for a capture, also those of routes that it does not end at,
so a name may be bound several times.  The binding that counts is the last one.  It holds the text
at the last capture for which a route that reads alike up to there has the name: this is the place
of the parameter itself, unless such a route has its name for a later parameter.
-/

namespace ServiceBindings

/-- The text that was bound last under a name that passes a test. -/
def lastBound (test : String → Bool) (bindings : List (String × List Char)) : Option (List Char) :=
  ((bindings.filter fun binding => test binding.1).getLast?).map (·.2)

theorem lastBound_append (test : String → Bool) (first second : List (String × List Char)) :
  lastBound test (first ++ second) = (lastBound test second).or (lastBound test first)
  := by
  rw [lastBound, List.filter_append, List.getLast?_append, Option.map_or, lastBound, lastBound]

/-- A text that is bound to several names is bound to each of them. -/
theorem lastBound_map {test : String → Bool} {names : List String} {name : String}
    (hname : name ∈ names) (htest : test name = true) (value : List Char) :
  lastBound test (names.map fun name => (name, value)) = some value
  := by
  have hne : names.filter test ≠ [] := List.ne_nil_of_mem (List.mem_filter.mpr ⟨hname, htest⟩)
  rw [lastBound, List.filter_map, List.getLast?_map, Option.map_map]
  obtain ⟨last, hlast⟩ := Option.ne_none_iff_exists'.mp (List.getLast?_eq_none_iff.not.mpr hne)
  simp only [Function.comp_def, hlast, Option.map_some]

theorem lastBound_eq_none {test : String → Bool} {bindings : List (String × List Char)} :
  lastBound test bindings = none ↔ ∀ binding ∈ bindings, test binding.1 = false
  := by
  simp [lastBound]

theorem lastBound_congr {first second : String → Bool} {bindings : List (String × List Char)}
    (h : ∀ binding ∈ bindings, first binding.1 = second binding.1) :
  lastBound first bindings = lastBound second bindings
  := by
  rw [lastBound, lastBound, List.filter_congr h]

/-! ### Captures of steps -/

/-- The name of a capture. -/
def Step.name? : Step → Option String
  | .char _ => none
  | .capture name => some name

theorem Template.parameterNames_append (first second : List Segment) :
  parameterNames (first ++ second) = parameterNames first ++ parameterNames second :=
  List.filterMap_append

/-- The captures of the steps of segments are the parameters. -/
theorem Template.captures_steps (segments : List Segment) :
  (segments.flatMap Segment.steps).filterMap Step.name? = parameterNames segments
  := by
  induction segments with
  | nil => rfl
  | cons segment segments ih =>
      rw [List.flatMap_cons, List.filterMap_append, ih]
      cases segment with
      | literal text =>
          have htext : (text.map Step.char).filterMap Step.name? = [] := by
            simp [List.filterMap_map, Function.comp_def, Step.name?]
          rw [Segment.steps, htext]
          rfl
      | parameter name => rfl

/-- A capture among the steps of segments is a parameter. -/
theorem Template.exists_parameter_of_capture {segments : List Segment} {before rest : List Step}
    {name : String} (h : segments.flatMap Segment.steps = before ++ .capture name :: rest) :
  ∃ first other last, segments = first ++ .parameter other :: last
    ∧ first.flatMap Segment.steps = before
  := by
  induction segments generalizing before with
  | nil => simp at h
  | cons segment segments ih =>
      rw [List.flatMap_cons] at h
      cases segment with
      | literal text =>
          -- The capture does not stand in the literal text.
          obtain ⟨middle, rfl, hrest⟩ | ⟨middle, htext, hrest⟩ := List.append_eq_append_iff.mp h
          · obtain ⟨first, other, last, rfl, rfl⟩ := ih hrest
            use .literal text :: first, other, last, rfl
            rfl
          · cases middle with
            | nil =>
                have hsegments : segments.flatMap Segment.steps = [] ++ .capture name :: rest :=
                  hrest.symm
                obtain ⟨first, other, last, rfl, hfirst⟩ := ih hsegments
                use .literal text :: first, other, last, rfl
                rw [List.flatMap_cons, hfirst, htext, List.append_nil, List.append_nil]
            | cons step middle =>
                obtain ⟨rfl, -⟩ := List.cons.inj hrest
                have hmem : Step.capture name ∈ text.map Step.char := by
                  rw [← Segment.steps, htext]
                  simp
                simp at hmem
      | parameter own =>
          cases before with
          | nil =>
              use [], own, segments, rfl
              rfl
          | cons step before =>
              obtain ⟨rfl, hrest⟩ := List.cons.inj h
              obtain ⟨first, other, last, rfl, rfl⟩ := ih hrest
              use .parameter own :: first, other, last, rfl
              rfl

/-- `Route.AnyNames routes before name`: one of the routes reads like the segments `before`, up to
the names of parameters, and goes on with a parameter of the name. -/
def Route.AnyNames (routes : List Route) (before : List Segment) (name : String) : Prop :=
  ∃ route ∈ routes, NamesAt route.steps (before.flatMap Segment.steps) name

instance (routes : List Route) (before : List Segment) (name : String) :
    Decidable (Route.AnyNames routes before name) :=
  inferInstanceAs (Decidable (∃ route ∈ routes, _))

namespace RouteNode

variable {routes : List Remainder} {name : String}

/-! ### Along a route -/

/-- A name that no route has for a capture is not bound. -/
theorem lastBound_boundAlong_none {steps : List Step}
    (h : ∀ before own rest, steps = before ++ .capture own :: rest →
      ¬∃ route ∈ routes, NamesAt route.2 before name) (values : List (List Char)) :
  lastBound (· = name) (boundAlong routes steps values) = none
  := by
  induction steps generalizing routes values with
  | nil => rfl
  | cons step steps ih =>
      cases step with
      | char c =>
          apply ih
          intro before own rest hsteps
          rw [exists_namesAt_char]
          apply h (.char c :: before) own rest
          rw [hsteps, List.cons_append]
      | capture own =>
          cases values with
          | nil => rfl
          | cons value values =>
              have hrest : lastBound (· = name) (boundAlong (afterCapture routes) steps values)
                  = none := by
                apply ih
                intro before other rest hsteps
                rw [exists_namesAt_capture]
                apply h (.capture own :: before) other rest
                rw [hsteps, List.cons_append]
              rw [boundAlong, lastBound_append, hrest, Option.none_or, lastBound_eq_none]
              intro binding hbinding
              obtain ⟨other, hother, rfl⟩ := List.mem_map.mp hbinding
              rw [decide_eq_false_iff_not]
              rintro rfl
              apply h [] own steps rfl (mem_captureNames.mp hother)

/-- The last binding of a name holds the value of the last capture that it is a name for. -/
theorem lastBound_boundAlong {before after : List Step} {own : String} {values : List (List Char)}
    {value : List Char} (hnamed : ∃ route ∈ routes, NamesAt route.2 before name)
    (hlater : ∀ middle other rest, after = middle ++ .capture other :: rest →
      ¬∃ route ∈ routes, NamesAt route.2 (before ++ .capture own :: middle) name)
    (hvalue : values[(before.filterMap Step.name?).length]? = some value) :
  lastBound (· = name) (boundAlong routes (before ++ .capture own :: after) values) = some value
  := by
  induction before generalizing routes values with
  | nil =>
      obtain ⟨values, rfl⟩ : ∃ rest, values = value :: rest := by
        cases values with
        | nil => cases hvalue
        | cons first rest =>
            obtain rfl : first = value := Option.some.inj hvalue
            use rest
      have hrest : lastBound (· = name) (boundAlong (afterCapture routes) after values) = none := by
        apply lastBound_boundAlong_none
        intro middle other rest hafter
        rw [exists_namesAt_capture]
        apply hlater middle other rest hafter
      rw [List.nil_append, boundAlong, lastBound_append, hrest, Option.none_or]
      apply lastBound_map (mem_captureNames.mpr hnamed) (decide_eq_true rfl)
  | cons step before ih =>
      cases step with
      | char c =>
          apply ih (exists_namesAt_char.mpr hnamed) _ hvalue
          intro middle other rest hafter
          rw [exists_namesAt_char]
          apply hlater middle other rest hafter
      | capture first =>
          cases values with
          | nil => cases hvalue
          | cons _ values =>
              have hrest := ih (exists_namesAt_capture.mpr hnamed) (by
                intro middle other rest hafter
                rw [exists_namesAt_capture]
                apply hlater middle other rest hafter) hvalue
              rw [List.cons_append, boundAlong, lastBound_append, hrest, Option.some_or]

/-! ### Served requests -/

theorem anyNames_iff {sources : List Route} {before : List Segment} :
  Route.AnyNames sources before name
    ↔ ∃ route ∈ remainders sources, NamesAt route.2 (before.flatMap Segment.steps) name
  := by
  simp [Route.AnyNames, remainders, remainder]

/-- A request is served by a route of its method whose template is filled to the path, and what is
bound is bound along that route. -/
theorem exists_of_resolve_eq_ok {sources : List Route}
    (htidy : ∀ route ∈ sources, Template.Tidy route.segments) {verb : Verb} {path : List Char}
    {found : RouteMatch} (h : (ofRoutes sources).resolve verb path = .ok found) :
  ∃ route ∈ sources, route.endpoint = found.endpoint ∧ route.verb = verb
    ∧ ∃ values : List (List Char), (∀ value ∈ values, Capturable value)
      ∧ Template.fill route.segments values = some path
      ∧ found.bindings = boundAlong (remainders sources) route.steps values
  := by
  obtain ⟨fitting, more, hfitting, hfits, hresolve⟩ := resolve_ofRoutes_along htidy path
  rw [hresolve] at h
  obtain ⟨hbindings, terminal, hfind, hendpoint⟩ := choose_eq_ok.mp h
  obtain ⟨route, hroute, rfl⟩ := List.mem_map.mp (List.mem_of_find?_eq_some hfind)
  obtain ⟨own, hown, hmore⟩ := hfits route hroute
  obtain ⟨values, hvalues, hfill, rfl⟩ := Template.exists_fill_of_fits hown
  rw [List.map_snd_zip (Nat.le_of_eq (Template.length_of_fill hfill))] at hmore
  use route, hfitting.subset hroute, hendpoint
  constructor
  · simpa using List.find?_some hfind
  · use values, hvalues, hfill, hbindings.trans hmore

/-- Along a route whose template is filled with values, all its parameters are bound. -/
theorem exists_boundAlong_parameter {sources : List Route} {route : Route}
    {values : List (List Char)} {path : List Char} (hroute : route ∈ sources)
    (hvalues : ∀ value ∈ values, Capturable value)
    (hfill : Template.fill route.segments values = some path)
    (hname : name ∈ Template.parameterNames route.segments) :
  ∃ binding ∈ boundAlong (remainders sources) route.steps values, binding.1 = name
  := by
  have hsublist := sublist_boundAlong (mem_remainders hroute) (Template.fits_of_fill hvalues hfill)
  have hlength := Template.length_of_fill hfill
  rw [List.map_snd_zip (Nat.le_of_eq hlength)] at hsublist
  rw [← List.map_fst_zip (Nat.le_of_eq hlength.symm)] at hname
  obtain ⟨binding, hbinding, rfl⟩ := List.mem_map.mp hname
  use binding, hsublist.subset hbinding

/-- Along a route whose template is filled with values, the last binding of a name holds the value
of the last parameter that some route reading alike up to there has the name for. -/
theorem lastBound_of_anyNames {sources : List Route} {route : Route} {values : List (List Char)}
    {path : List Char} {before after : List Segment} {own : List Char}
    (hfill : Template.fill route.segments values = some path)
    (hsegments : route.segments = before ++ .parameter own :: after)
    (hnamed : Route.AnyNames sources before name)
    (hlater : ∀ middle other rest, after = middle ++ .parameter other :: rest →
      ¬Route.AnyNames sources (before ++ .parameter own :: middle) name) :
  ∃ value, values[(Template.parameterNames before).length]? = some value
    ∧ lastBound (· = name) (boundAlong (remainders sources) route.steps values) = some value
  := by
  have hindex : (Template.parameterNames before).length < values.length := by
    rw [Template.length_of_fill hfill, hsegments, Template.parameterNames_append,
      List.length_append]
    apply Nat.lt_add_of_pos_right (Nat.succ_pos _)
  have hsteps : route.steps = before.flatMap Segment.steps
      ++ .capture (String.ofList own) :: after.flatMap Segment.steps := by
    rw [Route.steps, hsegments, List.flatMap_append]
    rfl
  use values[(Template.parameterNames before).length], List.getElem?_eq_getElem hindex
  rw [hsteps]
  apply lastBound_boundAlong
  · apply anyNames_iff.mp hnamed
  · intro middle other rest hafter
    obtain ⟨first, parameter, last, hsplit, rfl⟩ := Template.exists_parameter_of_capture hafter
    have hrival := hlater first parameter last hsplit
    rw [anyNames_iff, List.flatMap_append] at hrival
    apply hrival
  · rw [Template.captures_steps, List.getElem?_eq_getElem hindex]

/-- What a parameter of a served request receives.  The last binding of its name holds the text at
its own place in the template, if no route that reads like the template up to a later parameter has
the name for that one.  In general the last binding of a name holds the text at the last parameter
that a route reading like the template up to there has the name for. -/
theorem resolve_last_binding (sources : List (Nat × Verb × String)) (verb : Verb)
    (path : List Char) (found : RouteMatch)
    (hfound : (ofRoutes (Route.ofTemplates sources)).resolve verb path = .ok found) :
  ∃ route ∈ Route.ofTemplates sources, route.endpoint = found.endpoint ∧ route.verb = verb
    ∧ ∃ values : List (List Char), (∀ value ∈ values, Capturable value)
      ∧ Template.fill route.segments values = some path
      ∧ (∀ before name after, route.segments = before ++ .parameter name :: after →
        (∀ middle other rest, after = middle ++ .parameter other :: rest →
          ¬Route.AnyNames (Route.ofTemplates sources) (before ++ .parameter name :: middle)
            (String.ofList name)) →
        ∃ value, values[(Template.parameterNames before).length]? = some value
          ∧ lastBound (· = String.ofList name) found.bindings = some value)
      ∧ ∀ before own after name, route.segments = before ++ .parameter own :: after →
        Route.AnyNames (Route.ofTemplates sources) before name →
        (∀ middle other rest, after = middle ++ .parameter other :: rest →
          ¬Route.AnyNames (Route.ofTemplates sources) (before ++ .parameter own :: middle) name) →
        ∃ value, values[(Template.parameterNames before).length]? = some value
          ∧ lastBound (· = name) found.bindings = some value
  := by
  obtain ⟨route, hroute, hendpoint, hverb, values, hvalues, hfill, hbindings⟩ :=
    exists_of_resolve_eq_ok (fun _ => Route.tidy_of_mem) hfound
  use route, hroute, hendpoint, hverb, values, hvalues, hfill
  rw [hbindings]
  constructor
  · intro before name after hsegments hlater
    apply lastBound_of_anyNames hfill hsegments _ hlater
    use route, hroute, before.flatMap Segment.steps, after.flatMap Segment.steps
    rw [Route.steps, hsegments, List.flatMap_append]
    use rfl
  · intro before own after name hsegments hnamed hlater
    apply lastBound_of_anyNames hfill hsegments hnamed hlater

/-- Three routes with two parameters and a name that another route has for an earlier parameter:
each name is bound last at its own place. -/
theorem resolve_last_binding_toys :
  ∃ values : List (List Char), (∀ value ∈ values, Capturable value)
    ∧ Template.fill (Template.parse "/pets/\x7bid\x7d/toys/\x7btoy\x7d") values
        = some "/pets/7/toys/ball".toList
    ∧ ∃ found, (ofRoutes (Route.ofTemplates [(0, .get, "/pets/\x7bid\x7d/toys/\x7btoy\x7d"),
          (1, .put, "/pets/\x7bname\x7d/toys/\x7bnumber\x7d"),
          (2, .get, "/pets/\x7btoy\x7d")])).resolve .get "/pets/7/toys/ball".toList = .ok found
      ∧ (∃ value, values[0]? = some value ∧ lastBound (· = "id") found.bindings = some value)
      ∧ ∃ value, values[1]? = some value ∧ lastBound (· = "toy") found.bindings = some value
  := by
  have hfound : (ofRoutes (Route.ofTemplates [(0, .get, "/pets/\x7bid\x7d/toys/\x7btoy\x7d"),
      (1, .put, "/pets/\x7bname\x7d/toys/\x7bnumber\x7d"),
      (2, .get, "/pets/\x7btoy\x7d")])).resolve .get "/pets/7/toys/ball".toList
        = .ok ⟨0, [("id", ['7']), ("name", ['7']), ("toy", ['7']), ("toy", "ball".toList),
          ("number", "ball".toList)]⟩ := by
    decide +kernel
  obtain ⟨route, hroute, hendpoint, -, values, hvalues, hfill, hlast, -⟩ :=
    resolve_last_binding _ _ _ _ hfound
  have hsegments : route.segments = Template.parse "/pets/\x7bid\x7d/toys/\x7btoy\x7d" := by
    obtain rfl | rfl | rfl : route = _ ∨ route = _ ∨ route = _ := by
      simpa [Route.ofTemplates] using hroute
    · rfl
    · cases hendpoint
    · cases hendpoint
  have hparse : Template.parse "/pets/\x7bid\x7d/toys/\x7btoy\x7d" = [.literal "/pets/".toList,
      .parameter "id".toList, .literal "/toys/".toList, .parameter "toy".toList] := by
    decide +kernel
  rw [hsegments] at hfill
  rw [hsegments, hparse] at hlast
  refine ⟨values, hvalues, hfill, _, hfound, ?_, ?_⟩
  · apply hlast [.literal "/pets/".toList] "id".toList _ rfl
    intro middle other rest hafter
    obtain rfl : middle = [.literal "/toys/".toList] := by
      rcases middle with _ | ⟨first, _ | ⟨second, middle⟩⟩
      · simp at hafter
      · simp at hafter
        simp [hafter]
      · simp at hafter
    decide +kernel
  · apply hlast [.literal "/pets/".toList, .parameter "id".toList, .literal "/toys/".toList]
      "toy".toList [] rfl
    intro middle other rest hafter
    simp at hafter

/-- Two routes have the same names for different parameters: what is bound last to the first name of
the template is the text at the place of the second. -/
theorem resolve_binds_rival_place :
  ∃ found, (ofRoutes (Route.ofTemplates [(0, .get, "/\x7ba\x7d/\x7bb\x7d"),
      (1, .post, "/\x7bb\x7d/\x7ba\x7d")])).resolve .get "/1/2".toList = .ok found
    ∧ found.endpoint = 0
    ∧ (Template.parameterNames (Template.parse "/\x7ba\x7d/\x7bb\x7d")) = ["a", "b"]
    ∧ Template.fill (Template.parse "/\x7ba\x7d/\x7bb\x7d") [['1'], ['2']] = some "/1/2".toList
    ∧ lastBound (· = "a") found.bindings = some ['2']
  := by
  use ⟨0, [("a", ['1']), ("b", ['1']), ("b", ['2']), ("a", ['2'])]⟩
  decide +kernel

end RouteNode

end ServiceBindings
