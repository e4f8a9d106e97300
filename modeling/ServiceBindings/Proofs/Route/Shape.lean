import ServiceBindings.Proofs.Route.Outline

/-!
# Shapes of templates

The shape of a template is what is left of it when the names of its parameters are erased.  Since the
segments of a template are tidy, they can be read back from the steps, and two templates have the
same shape exactly if their steps read alike up to the names of captures.
-/

namespace ServiceBindings

/-- A segment without the name of its parameter. -/
def Segment.blank : Segment → Segment
  | .literal text => .literal text
  | .parameter _ => .parameter []

/-- The template of a route without the names of its parameters. -/
def Route.shape (route : Route) : List Segment :=
  route.segments.map Segment.blank

namespace Template

/-! ### Reading segments back -/

/-- Puts a literal character in front of segments. -/
def joinChar (c : Char) : List Segment → List Segment
  | .literal text :: segments => .literal (c :: text) :: segments
  | segments => .literal [c] :: segments

/-- The segments that steps without names are those of. -/
def ofOutline : List (Option Char) → List Segment
  | [] => []
  | some c :: rest => joinChar c (ofOutline rest)
  | none :: rest => .parameter [] :: ofOutline rest

/-- Literal text before steps that go on otherwise is read back as one segment. -/
theorem ofOutline_text {text : List Char} (htext : text ≠ []) {rest : List (Option Char)}
    (hrest : ∀ other, (ofOutline rest).head? ≠ some (.literal other)) :
  ofOutline (text.map some ++ rest) = .literal text :: ofOutline rest
  := by
  induction text with
  | nil => apply absurd rfl htext
  | cons c text ih =>
      rw [List.map_cons, List.cons_append, ofOutline]
      cases text with
      | nil =>
          rw [List.map_nil, List.nil_append]
          match hsegments : ofOutline rest with
          | [] => rfl
          | .parameter _ :: _ => rfl
          | .literal other :: _ =>
              rw [hsegments] at hrest
              apply absurd rfl (hrest other)
      | cons d text =>
          rw [ih (List.cons_ne_nil d text)]
          rfl

/-- Tidy segments are read back from their steps, up to the names of parameters. -/
theorem ofOutline_steps {segments : List Segment} (h : Tidy segments) :
  ofOutline (outline (segments.flatMap Segment.steps)) = segments.map Segment.blank
  := by
  induction segments with
  | nil => rfl
  | cons segment segments ih =>
      rw [List.flatMap_cons, outline, List.map_append, ← outline, ← outline, List.map_cons]
      cases segment with
      | parameter name => rw [← ih h]; rfl
      | literal text =>
          obtain ⟨htext, hhead, htidy⟩ := h
          have hsteps : outline (Segment.literal text).steps = text.map some := by
            simp [Segment.steps, outline, Step.outline]
          rw [hsteps, ofOutline_text htext, ih htidy]
          · rfl
          · intro other hother
            rw [ih htidy, List.head?_map, Option.map_eq_some_iff] at hother
            obtain ⟨first, hfirst, hblank⟩ := hother
            cases first with
            | literal text => apply hhead text hfirst
            | parameter name => cases hblank

/-- Steps without names only depend on the shape. -/
theorem outline_blank (segments : List Segment) :
  outline ((segments.map Segment.blank).flatMap Segment.steps)
    = outline (segments.flatMap Segment.steps)
  := by
  induction segments with
  | nil => rfl
  | cons segment segments ih =>
      simp only [outline, List.map_cons, List.flatMap_cons, List.map_append] at ih ⊢
      rw [ih]
      cases segment <;> rfl

end Template

/-- Routes of templates have the same shape exactly if their steps read alike up to the names of
captures. -/
theorem Route.shape_eq_iff {first second : Route} (hfirst : Template.Tidy first.segments)
    (hsecond : Template.Tidy second.segments) :
  first.shape = second.shape ↔ outline first.steps = outline second.steps
  := by
  constructor
  · intro h
    rw [Route.steps, ← Template.outline_blank, ← shape, h, shape, Template.outline_blank]
    rfl
  · intro h
    rw [shape, shape, ← Template.ofOutline_steps hfirst, ← Template.ofOutline_steps hsecond]
    apply congrArg Template.ofOutline h

end ServiceBindings
