import ServiceBindings.Proofs.Route.Walk

/-!
# Outlines, and what is bound along them

Routes go the same way through a tree as long as they read alike up to the names of their captures.
So a walk binds, at each capture, all the names that the routes reading alike up to there have for
it; `RouteNode.boundAlong` puts these bindings together.
-/

namespace ServiceBindings

/-- A step without the name of its capture. -/
def Step.outline : Step → Option Char
  | .char c => some c
  | .capture _ => none

/-- Steps without the names of their captures. -/
def outline (steps : List Step) : List (Option Char) :=
  steps.map Step.outline

/-- `NamesAt steps before name`: the steps read like `before` up to the names of captures, and then
capture a text under the name. -/
def NamesAt (steps before : List Step) (name : String) : Prop :=
  ∃ first rest, steps = first ++ .capture name :: rest ∧ outline first = outline before

theorem namesAt_nil {steps : List Step} {name : String} :
  NamesAt steps [] name ↔ ∃ rest, steps = .capture name :: rest
  := by
  constructor
  · rintro ⟨first, rest, rfl, hfirst⟩
    obtain rfl := List.map_eq_nil_iff.mp hfirst
    use rest
    rfl
  · rintro ⟨rest, rfl⟩
    use [], rest
    constructor <;> rfl

theorem namesAt_cons {steps before : List Step} {step : Step} {name : String} :
  NamesAt steps (step :: before) name
    ↔ ∃ first rest, steps = first :: rest ∧ first.outline = step.outline ∧ NamesAt rest before name
  := by
  constructor
  · rintro ⟨first, rest, rfl, hfirst⟩
    obtain ⟨head, tail, rfl, hhead, htail⟩ := List.map_eq_cons_iff.mp hfirst
    use head, tail ++ .capture name :: rest, rfl, hhead, tail, rest, rfl, htail
  · rintro ⟨head, tail, rfl, hhead, first, rest, rfl, hfirst⟩
    use head :: first, rest, rfl
    rw [outline, outline, List.map_cons, List.map_cons, hhead]
    congr 1

theorem namesAt_iff_getElem {steps before : List Step} {name : String} :
  NamesAt steps before name
    ↔ outline (steps.take before.length) = outline before
      ∧ steps[before.length]? = some (.capture name)
  := by
  constructor
  · rintro ⟨first, rest, rfl, hfirst⟩
    have hlength : before.length = first.length := by
      simpa [outline] using (congrArg List.length hfirst).symm
    simp [hlength, hfirst]
  · rintro ⟨hbefore, hname⟩
    obtain ⟨hindex, hname⟩ := List.getElem?_eq_some_iff.mp hname
    use steps.take before.length, steps.drop (before.length + 1)
    rw [← hname, ← List.drop_eq_getElem_cons, List.take_append_drop]
    use rfl

instance (steps before : List Step) (name : String) : Decidable (NamesAt steps before name) :=
  decidable_of_iff _ namesAt_iff_getElem.symm

/-- The routes of templates have tidy segments. -/
theorem Route.tidy_of_mem {sources : List (Nat × Verb × String)} {route : Route}
    (h : route ∈ ofTemplates sources) :
  Template.Tidy route.segments
  := by
  obtain ⟨⟨endpoint, verb, template⟩, -, rfl⟩ := List.mem_map.mp h
  apply Template.tidy_parse

namespace RouteNode

variable {routes : List Remainder} {name : String}

/-! ### Routes that read alike -/

theorem nextCapture_eq_some {route after : Remainder} :
  nextCapture? route = some (name, after) ↔ route = (after.1, .capture name :: after.2)
  := by
  match route with
  | (_, .capture _ :: _) => simp [nextCapture?, Prod.ext_iff, and_left_comm]
  | (_, .char _ :: _) => simp [nextCapture?]
  | (_, []) => simp [nextCapture?]

theorem mem_afterCapture {route : Remainder} :
  route ∈ afterCapture routes ↔ ∃ name, (route.1, .capture name :: route.2) ∈ routes
  := by
  simp [afterCapture, List.mem_filterMap, nextCapture_eq_some]

theorem mem_captureNames :
  name ∈ captureNames routes ↔ ∃ route ∈ routes, NamesAt route.2 [] name
  := by
  simp only [captureNames, List.mem_eraseDups, List.mem_map, List.mem_filterMap, namesAt_nil]
  constructor
  · rintro ⟨⟨_, after⟩, ⟨route, hroute, hnext⟩, rfl⟩
    use route, hroute, after.2
    rw [nextCapture_eq_some.mp hnext]
  · rintro ⟨⟨terminal, steps⟩, hroute, rest, hsteps⟩
    obtain rfl : steps = _ := hsteps
    use (name, terminal, rest)
    constructor
    · use (terminal, .capture name :: rest), hroute
      rfl
    · rfl

/-- The routes that go on with a character, after it. -/
theorem exists_namesAt_char {c : Char} {before : List Step} :
  (∃ route ∈ (startingWith routes c).map (advance 1), NamesAt route.2 before name)
    ↔ ∃ route ∈ routes, NamesAt route.2 (.char c :: before) name
  := by
  simp only [namesAt_cons]
  constructor
  · rintro ⟨_, hmem, hnames⟩
    obtain ⟨⟨terminal, steps⟩, hroute, rfl⟩ := List.mem_map.mp hmem
    obtain ⟨hroute, hhead⟩ := mem_startingWith.mp hroute
    obtain ⟨rest, rfl⟩ := List.head?_eq_some_iff.mp hhead
    use (terminal, .char c :: rest), hroute, .char c, rest, rfl, rfl
    apply hnames
  · rintro ⟨⟨terminal, steps⟩, hroute, first, rest, hsteps, houtline, hnames⟩
    obtain rfl : steps = _ := hsteps
    cases first with
    | capture => cases houtline
    | char d =>
        cases houtline
        use (terminal, rest)
        constructor
        · apply List.mem_map.mpr
          use (terminal, .char c :: rest), mem_startingWith.mpr ⟨hroute, rfl⟩
          rfl
        · apply hnames

/-- The routes that go on with a capture, after it. -/
theorem exists_namesAt_capture {own : String} {before : List Step} :
  (∃ route ∈ afterCapture routes, NamesAt route.2 before name)
    ↔ ∃ route ∈ routes, NamesAt route.2 (.capture own :: before) name
  := by
  simp only [mem_afterCapture, namesAt_cons]
  constructor
  · rintro ⟨⟨terminal, steps⟩, ⟨other, hroute⟩, hnames⟩
    use (terminal, .capture other :: steps), hroute, .capture other, steps, rfl, rfl
  · rintro ⟨⟨terminal, steps⟩, hroute, first, rest, hsteps, houtline, hnames⟩
    obtain rfl : steps = _ := hsteps
    cases first with
    | char => cases houtline
    | capture other =>
        use (terminal, rest)
        refine ⟨⟨other, hroute⟩, hnames⟩

/-! ### Trees of routes -/

/-- The tree of some routes answers with those of them that the walk along the path ends at. -/
theorem Walks.resolve {sources : List Route} {path : List Char} {chosen : List Step → Bool}
    {more : List (String × List Char)}
    (h : Walks (deepest sources) (remainders sources) path chosen more)
    (htidy : ∀ route ∈ sources, Template.Tidy route.segments) (verb : Verb) :
  (ofRoutes sources).resolve verb path
    = choose verb more ((sources.filter fun route => chosen route.steps).map fun route =>
        ⟨route.endpoint, route.verb⟩)
  := by
  have hresolve := h.arrives verb []
  rw [List.nil_append, remainders, List.filter_map, List.map_map, ← remainders] at hresolve
  rw [ofRoutes_eq_build htidy]
  apply hresolve

/-! ### Bindings -/

/-- What a walk along the steps of a route binds when the captures stand for the values: at each
capture the names that the routes reading alike up to there have for it. -/
def boundAlong (routes : List Remainder) : List Step → List (List Char) → List (String × List Char)
  | .char c :: steps, values => boundAlong ((startingWith routes c).map (advance 1)) steps values
  | .capture _ :: steps, value :: values =>
    (captureNames routes).map (fun name => (name, value))
      ++ boundAlong (afterCapture routes) steps values
  | .capture _ :: _, [] => []
  | [], _ => []

/-- Along a text that all routes start with, nothing is bound. -/
theorem boundAlong_text {text : List Char}
    (h : ∀ route ∈ routes, ∃ rest, route.2 = text.map .char ++ rest) (steps : List Step)
    (values : List (List Char)) :
  boundAlong routes (text.map .char ++ steps) values
    = boundAlong (routes.map (advance text.length)) steps values
  := by
  induction text generalizing routes with
  | nil =>
      have hadvance : routes.map (advance 0) = routes := List.map_id routes
      rw [List.length_nil, hadvance]
      rfl
  | cons c text ih =>
      have hall : startingWith routes c = routes := by
        apply List.filter_eq_self.mpr
        intro route hroute
        obtain ⟨rest, hrest⟩ := h route hroute
        rw [decide_eq_true_iff, nextChar_eq_some, hrest]
        rfl
      rw [List.map_cons, List.cons_append, boundAlong, hall, ih, List.map_map]
      · congr 1
        apply List.map_congr_left
        intro route _
        simp only [Function.comp_apply, advance, List.drop_drop, List.length_cons, Nat.add_comm]
      · intro route hroute
        obtain ⟨before, hbefore, rfl⟩ := List.mem_map.mp hroute
        obtain ⟨rest, hrest⟩ := h before hbefore
        use rest
        rw [advance, hrest]
        rfl

/-- A walk below the literal edge for a character binds what a walk above it binds. -/
theorem boundAlong_literalEdge {depth : Nat} {route : Remainder} {c : Char}
    (h : route ∈ startingWith routes c) (values : List (List Char)) :
  boundAlong routes route.2 values
    = boundAlong ((startingWith routes c).map (advance (literalEdge depth routes c).1.length))
        (route.2.drop (literalEdge depth routes c).1.length) values
  := by
  rw [← boundAlong_text]
  · have hsteps := steps_eq_sharedText h
    rw [literalEdge, ← hsteps]
    obtain ⟨rest, hrest⟩ := List.head?_eq_some_iff.mp (mem_startingWith.mp h).2
    rw [hrest, boundAlong, boundAlong]
    simp only [startingWith, List.filter_filter, Bool.and_self]
  · intro other hother
    use other.2.drop (sharedText (startingWith routes c)).length
    apply steps_eq_sharedText hother

/-- What the steps of a route bind by themselves is among what a walk along them binds. -/
theorem sublist_boundAlong {terminal : Terminal} {steps : List Step} {path : List Char}
    {own : List (String × List Char)} (hroute : (terminal, steps) ∈ routes)
    (h : Fits steps path own) :
  own.Sublist (boundAlong routes steps (own.map (·.2)))
  := by
  induction h generalizing routes with
  | nil => apply List.nil_sublist
  | @char c steps path own h ih =>
      apply ih
      apply List.mem_map.mpr
      use (terminal, .char c :: steps), mem_startingWith.mpr ⟨hroute, rfl⟩
      rfl
  | @capture name value steps path own hvalue h ih =>
      have hname : name ∈ captureNames routes := by
        apply mem_captureNames.mpr
        use (terminal, .capture name :: steps), hroute
        apply namesAt_nil.mpr ⟨steps, rfl⟩
      have hrest := ih (mem_afterCapture.mpr ⟨name, hroute⟩)
      have hfirst : [(name, value)].Sublist ((captureNames routes).map fun name => (name, value)) :=
        List.singleton_sublist.mpr (List.mem_map_of_mem hname)
      apply hfirst.append hrest

end RouteNode

end ServiceBindings
