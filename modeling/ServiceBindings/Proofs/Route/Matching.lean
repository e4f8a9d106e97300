import Mathlib.Data.List.Basic
import Mathlib.Tactic.Use
import ServiceBindings.Route.Tree

/-!
# Paths that match a template

A path matches a template if it is what the template becomes when every parameter is replaced by a
capturable text, one that is not empty and holds no slash.  This is said once for the segments of a
template and once for the steps of a route; `Route.exists_fits_iff` says that the two agree.
-/

namespace ServiceBindings

/-- A text that a parameter may stand for: it is not empty and holds no slash. -/
def Capturable (value : List Char) : Prop :=
  value ≠ [] ∧ '/' ∉ value

/-! ### Segments -/

namespace Template

/-- The path that segments become when their parameters are replaced by values, in order.  There has
to be one value for each parameter. -/
def fill : List Segment → List (List Char) → Option (List Char)
  | [], [] => some []
  | .literal text :: segments, values => (fill segments values).map (text ++ ·)
  | .parameter _ :: segments, value :: values => (fill segments values).map (value ++ ·)
  | [], _ :: _ => none
  | .parameter _ :: _, [] => none

/-- Segments that may follow a parameter: none, or a literal text that starts with a slash. -/
def EndsCapture : List Segment → Prop
  | [] => True
  | .literal text :: _ => text.head? = some '/'
  | .parameter _ :: _ => False

/-- Each parameter stands at the end or before a literal text that starts with a slash. -/
def Delimited : List Segment → Prop
  | [] => True
  | .literal _ :: segments => Delimited segments
  | .parameter _ :: segments => EndsCapture segments ∧ Delimited segments

instance (segments : List Segment) : Decidable (EndsCapture segments) :=
  match segments with
  | [] => isTrue trivial
  | .literal text :: _ => inferInstanceAs (Decidable (text.head? = some '/'))
  | .parameter _ :: _ => isFalse id

instance decidableDelimited : (segments : List Segment) → Decidable (Delimited segments)
  | [] => isTrue trivial
  | .literal _ :: segments => decidableDelimited segments
  | .parameter _ :: segments =>
    have := decidableDelimited segments
    inferInstanceAs (Decidable (EndsCapture segments ∧ Delimited segments))

end Template

namespace Route

/-- Whether a path matches the template of a route. -/
def Accepts (route : Route) (path : List Char) : Prop :=
  ∃ values : List (List Char), (∀ value ∈ values, Capturable value)
    ∧ Template.fill route.segments values = some path

/-- The routes of endpoints with methods and path templates. -/
def ofTemplates (sources : List (Nat × Verb × String)) : List Route :=
  sources.map fun (endpoint, verb, template) => ofTemplate endpoint verb template

end Route

/-! ### Steps -/

/-- `Fits steps path own`: the steps lead along the whole path and bind the pairs `own`. -/
inductive Fits : List Step → List Char → List (String × List Char) → Prop where
  | nil : Fits [] [] []
  | char {c : Char} {steps : List Step} {path : List Char} {own : List (String × List Char)} :
      Fits steps path own → Fits (.char c :: steps) (c :: path) own
  | capture {name : String} {value : List Char} {steps : List Step} {path : List Char}
      {own : List (String × List Char)} :
      Capturable value → Fits steps path own →
      Fits (.capture name :: steps) (value ++ path) ((name, value) :: own)

namespace Fits

/-- Steps over a literal text lead along that text. -/
theorem append_text {steps : List Step} {path : List Char} {own : List (String × List Char)}
    (text : List Char) (h : Fits steps path own) :
  Fits (text.map .char ++ steps) (text ++ path) own
  := by
  induction text with
  | nil => apply h
  | cons c text ih => apply Fits.char ih

/-- What steps over a literal text lead along starts with that text. -/
theorem of_append_text {text : List Char} {steps : List Step} {path : List Char}
    {own : List (String × List Char)} (h : Fits (text.map .char ++ steps) path own) :
  ∃ rest, path = text ++ rest ∧ Fits steps rest own
  := by
  induction text generalizing path with
  | nil => use path, rfl, h
  | cons c text ih =>
      cases h with
      | char h =>
          obtain ⟨rest, rfl, hrest⟩ := ih h
          use rest, rfl, hrest

/-- Nothing but no steps leads along the empty path. -/
theorem steps_nil {steps : List Step} {own : List (String × List Char)} (h : Fits steps [] own) :
  steps = []
  := by
  generalize hpath : ([] : List Char) = path at h
  cases h with
  | nil => rfl
  | char h => cases hpath
  | capture hvalue h =>
      obtain ⟨hnil, -⟩ := List.append_eq_nil_iff.mp hpath.symm
      apply absurd hnil hvalue.1

end Fits

/-! ### From segments to steps -/

/-- The steps of segments lead along the path that the segments are filled to, and bind the names of
the parameters to the values. -/
theorem Template.fits_of_fill {segments : List Segment} {values : List (List Char)}
    {path : List Char} (hvalues : ∀ value ∈ values, Capturable value)
    (h : fill segments values = some path) :
  Fits (segments.flatMap Segment.steps) path ((parameterNames segments).zip values)
  := by
  induction segments generalizing values path with
  | nil =>
      cases values with
      | nil =>
          obtain rfl := Option.some.inj h
          apply Fits.nil
      | cons value values => cases h
  | cons segment segments ih =>
      cases segment with
      | literal text =>
          obtain ⟨rest, hrest, rfl⟩ := Option.map_eq_some_iff.mp h
          apply Fits.append_text text (ih hvalues hrest)
      | parameter name =>
          cases values with
          | nil => cases h
          | cons value values =>
              obtain ⟨rest, hrest, rfl⟩ := Option.map_eq_some_iff.mp h
              obtain ⟨hvalue, hvalues⟩ := List.forall_mem_cons.mp hvalues
              apply Fits.capture hvalue (ih hvalues hrest)

/-- Segments are filled with one value for each parameter. -/
theorem Template.length_of_fill {segments : List Segment} {values : List (List Char)}
    {path : List Char} (h : fill segments values = some path) :
  values.length = (parameterNames segments).length
  := by
  induction segments generalizing values path with
  | nil =>
      cases values with
      | nil => rfl
      | cons value values => cases h
  | cons segment segments ih =>
      cases segment with
      | literal text =>
          obtain ⟨rest, hrest, -⟩ := Option.map_eq_some_iff.mp h
          apply ih hrest
      | parameter name =>
          cases values with
          | nil => cases h
          | cons value values =>
              obtain ⟨rest, hrest, -⟩ := Option.map_eq_some_iff.mp h
              rw [List.length_cons, ih hrest]
              rfl

/-- A path that the steps of segments lead along is what the segments are filled to by the values
that are bound. -/
theorem Template.exists_fill_of_fits {segments : List Segment} {path : List Char}
    {own : List (String × List Char)} (h : Fits (segments.flatMap Segment.steps) path own) :
  ∃ values : List (List Char), (∀ value ∈ values, Capturable value)
    ∧ fill segments values = some path ∧ own = (parameterNames segments).zip values
  := by
  induction segments generalizing path own with
  | nil =>
      cases h
      use []
      simp [fill, parameterNames]
  | cons segment segments ih =>
      cases segment with
      | literal text =>
          obtain ⟨rest, rfl, hrest⟩ := Fits.of_append_text h
          obtain ⟨values, hvalues, hfill, hown⟩ := ih hrest
          use values, hvalues
          constructor
          · rw [fill, hfill, Option.map_some]
          · apply hown
      | parameter name =>
          cases h with
          | @capture _ value _ rest own hvalue h =>
              obtain ⟨values, hvalues, hfill, rfl⟩ := ih h
              use value :: values
              constructor
              · apply List.forall_mem_cons.mpr ⟨hvalue, hvalues⟩
              constructor
              · rw [fill, hfill, Option.map_some]
              · rfl

/-- A path matches the template of a route exactly if the steps of the route lead along it. -/
theorem Route.exists_fits_iff (route : Route) (path : List Char) :
  (∃ own, Fits route.steps path own) ↔ route.Accepts path
  := by
  constructor
  · rintro ⟨own, h⟩
    obtain ⟨values, hvalues, hfill, -⟩ := Template.exists_fill_of_fits h
    use values, hvalues, hfill
  · rintro ⟨values, hvalues, hfill⟩
    use (Template.parameterNames route.segments).zip values
    apply Template.fits_of_fill hvalues hfill

end ServiceBindings
