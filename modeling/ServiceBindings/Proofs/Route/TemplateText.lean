import ServiceBindings.Proofs.Route.Shape

/-!
# Templates and their text

Reading a template loses nothing: its segments are written as the template, with one closing brace
more if its last parameter had none.  The segments that come out of a template are those in which
literal texts are not empty and stand apart, no literal text opens a parameter and no name closes
one, and all such segments are read back from what they are written as.
-/

namespace ServiceBindings

/-- Whether a segment holds no brace that ends a segment of its kind. -/
def Segment.IsClean : Segment → Prop
  | .literal text => '\x7b' ∉ text
  | .parameter name => '\x7d' ∉ name

namespace Template

/-- Whether an opening brace of a template is followed by no closing one, so that its last parameter
is not closed. -/
def Unclosed (cs : List Char) : Prop :=
  ∃ before name, cs = before ++ '\x7b' :: name ∧ '\x7d' ∉ name

/-- Whether segments are as those of a template. -/
structure Canonical (segments : List Segment) : Prop where
  tidy : Tidy segments
  clean : ∀ segment ∈ segments, segment.IsClean

/-! ### One character more -/

/-- The brace that ends the current segment. -/
def ending (inside : Bool) : Char :=
  if inside then '\x7d' else '\x7b'

/-- Puts the current segment in front of the segments after it. -/
def finish (inside : Bool) (part : List Char) (rest : List Segment) : List Segment :=
  if inside then .parameter part :: rest else closeLiteral part rest

theorem scan_nil (inside : Bool) (part : List Char) :
  scan inside part [] = finish inside part []
  := by
  cases inside <;> rfl

theorem scan_ending (inside : Bool) (part cs : List Char) :
  scan inside part (ending inside :: cs) = finish inside part (scan (!inside) [] cs)
  := by
  cases inside <;> rfl

theorem scan_other {inside : Bool} {c : Char} (h : c ≠ ending inside) (part cs : List Char) :
  scan inside part (c :: cs) = scan inside (part ++ [c]) cs
  := by
  cases inside with
  | true =>
      have hother : ¬c = '\x7d' := h
      rw [scan, if_pos rfl, if_neg hother]
  | false =>
      have hother : ¬c = '\x7b' := h
      rw [scan, if_neg Bool.false_ne_true, if_neg hother]

/-! ### Parameters without a closing brace -/

/-- Whether a text ends within a parameter. -/
def endsInside (inside : Bool) : List Char → Bool
  | [] => inside
  | c :: cs => endsInside (if c = ending inside then !inside else inside) cs

theorem unclosed_cons (c : Char) (cs : List Char) :
  Unclosed (c :: cs) ↔ c = '\x7b' ∧ '\x7d' ∉ cs ∨ Unclosed cs
  := by
  constructor
  · rintro ⟨before, name, heq, hname⟩
    cases before with
    | nil =>
        obtain ⟨rfl, rfl⟩ := List.cons.inj heq
        exact .inl ⟨rfl, hname⟩
    | cons b before => exact .inr ⟨before, name, (List.cons.inj heq).2, hname⟩
  · rintro (⟨rfl, hname⟩ | ⟨before, name, rfl, hname⟩)
    · exact ⟨[], cs, rfl, hname⟩
    · exact ⟨c :: before, name, rfl, hname⟩

/-- A text ends within a parameter if the one that it starts in is never closed, or if a later one
is not. -/
theorem endsInside_iff (inside : Bool) (cs : List Char) :
  endsInside inside cs = true ↔ inside = true ∧ '\x7d' ∉ cs ∨ Unclosed cs
  := by
  induction cs generalizing inside with
  | nil => simp [endsInside, Unclosed]
  | cons c cs ih =>
      rw [endsInside, ih, unclosed_cons]
      cases inside with
      | true =>
          by_cases hc : c = '\x7d'
          · simp [ending, hc]
          · have hother : '\x7d' ≠ c := Ne.symm hc
            simp only [ending, hc, List.mem_cons, hother, false_or, if_true, if_false, true_and]
            tauto
      | false =>
          by_cases hc : c = '\x7b'
          · simp [ending, hc]
          · simp [ending, hc]

theorem endsInside_false_iff (cs : List Char) : endsInside false cs = true ↔ Unclosed cs := by
  simp [endsInside_iff]

instance (cs : List Char) : Decidable (Unclosed cs) :=
  decidable_of_iff _ (endsInside_false_iff cs)

/-! ### Writing what was read -/

/-- What has been read of the current segment. -/
def openText (inside : Bool) (part : List Char) : List Char :=
  if inside then '\x7b' :: part else part

/-- What closes a text that ends within a parameter. -/
def closing (inside : Bool) : List Char :=
  if inside then ['\x7d'] else []

theorem write_finish (inside : Bool) (part : List Char) (rest : List Segment) :
  write (finish inside part rest) = openText inside part ++ closing inside ++ write rest
  := by
  cases inside with
  | true => simp [finish, write, segmentText, openText, closing]
  | false =>
      rw [finish, if_neg Bool.false_ne_true, closeLiteral]
      split
      case isTrue hempty => rw [List.isEmpty_iff.mp hempty]; rfl
      case isFalse => simp [write, segmentText, openText, closing]

/-- The segments of a text are written as the text, with a closing brace if it ends within a
parameter. -/
theorem write_scan (inside : Bool) (part cs : List Char) :
  write (scan inside part cs) = openText inside part ++ cs ++ closing (endsInside inside cs)
  := by
  induction cs generalizing inside part with
  | nil => rw [scan_nil, write_finish, endsInside, write, List.flatMap_nil, List.append_nil,
      List.append_nil]
  | cons c cs ih =>
      rw [endsInside]
      by_cases hc : c = ending inside
      · -- The brace is written as the end of this segment or as the start of the next one.
        have hbrace : closing inside ++ openText (!inside) [] = [ending inside] := by
          cases inside <;> rfl
        rw [if_pos hc, hc, scan_ending, write_finish, ih]
        calc
          _ = openText inside part ++ (closing inside ++ openText (!inside) []) ++ cs
              ++ closing (endsInside (!inside) cs) := by
            simp only [List.append_assoc]
          _ = _ := by rw [hbrace, List.append_assoc (openText inside part), List.singleton_append]
      · have hlonger : openText inside (part ++ [c]) = openText inside part ++ [c] := by
          cases inside <;> rfl
        rw [if_neg hc, scan_other hc, ih, hlonger, List.append_assoc (openText inside part),
          List.singleton_append]

/-! ### Clean segments -/

theorem isClean_finish {inside : Bool} {part : List Char} (hpart : ending inside ∉ part)
    {rest : List Segment} (h : ∀ segment ∈ rest, segment.IsClean) :
  ∀ segment ∈ finish inside part rest, segment.IsClean
  := by
  cases inside with
  | true => exact List.forall_mem_cons.mpr ⟨hpart, h⟩
  | false =>
      rw [finish, if_neg Bool.false_ne_true, closeLiteral]
      split
      case isTrue => apply h
      case isFalse => exact List.forall_mem_cons.mpr ⟨hpart, h⟩

/-- A segment ends at the first brace that can end it. -/
theorem isClean_scan {inside : Bool} {part : List Char} (h : ending inside ∉ part)
    (cs : List Char) :
  ∀ segment ∈ scan inside part cs, segment.IsClean
  := by
  induction cs generalizing inside part with
  | nil =>
      rw [scan_nil]
      apply isClean_finish h (List.forall_mem_nil _)
  | cons c cs ih =>
      by_cases hc : c = ending inside
      · rw [hc, scan_ending]
        apply isClean_finish h (ih List.not_mem_nil)
      · rw [scan_other hc]
        apply ih
        simpa [h] using Ne.symm hc

theorem canonical_parse (template : String) : Canonical (parse template) where
  tidy := tidy_parse template
  clean := isClean_scan List.not_mem_nil template.toList

/-! ### Reading what was written -/

/-- Text without the brace that ends the current segment belongs to it. -/
theorem scan_append {inside : Bool} {text : List Char} (h : ending inside ∉ text)
    (part rest : List Char) :
  scan inside part (text ++ rest) = scan inside (part ++ text) rest
  := by
  induction text generalizing part with
  | nil => simp
  | cons c text ih =>
      rw [List.mem_cons, not_or] at h
      rw [List.cons_append, scan_other (Ne.symm h.1), ih h.2, List.append_assoc,
        List.singleton_append]

/-- Literal text ends where segments that start with a parameter are written. -/
theorem scan_literal {segments : List Segment}
    (h : ∀ other, segments.head? ≠ some (.literal other)) (text : List Char) :
  scan false text (write segments) = closeLiteral text (scan false [] (write segments))
  := by
  match segments with
  | [] => rfl
  | .literal other :: _ => apply absurd rfl (h other)
  | .parameter name :: rest => rfl

theorem scan_write {segments : List Segment} (h : Canonical segments) :
  scan false [] (write segments) = segments
  := by
  obtain ⟨htidy, hclean⟩ := h
  induction segments with
  | nil => rfl
  | cons segment rest ih =>
      obtain ⟨hsegment, hrest⟩ := List.forall_mem_cons.mp hclean
      cases segment with
      | literal text =>
          obtain ⟨htext, hhead, htidy⟩ := htidy
          have hbrace : ending false ∉ text := hsegment
          have hwrite : write (.literal text :: rest) = text ++ write rest := rfl
          rw [hwrite, scan_append hbrace, List.nil_append, scan_literal hhead, ih htidy hrest,
            closeLiteral, if_neg (by simpa using htext)]
      | parameter name =>
          have hwrite : write (.parameter name :: rest)
              = ending false :: (name ++ ending true :: write rest) := by
            simp [write, segmentText, ending]
          have hname : ending true ∉ name := hsegment
          rw [hwrite, scan_ending, Bool.not_false, scan_append hname, List.nil_append,
            scan_ending, Bool.not_true, ih htidy hrest]
          rfl

/-- Writing the segments of a template gives the template, with a closing brace added if its last
parameter has none.  Its segments are canonical, and canonical segments are those of the template
that they are written as. -/
theorem parse_write_exact :
  (∀ template : String,
    (¬Unclosed template.toList → write (parse template) = template.toList)
    ∧ (Unclosed template.toList → write (parse template) = template.toList ++ ['\x7d'])
    ∧ Canonical (parse template))
  ∧ ∀ segments, Canonical segments → parse (String.ofList (write segments)) = segments
  := by
  constructor
  · intro template
    have hwrite : write (parse template)
        = template.toList ++ closing (endsInside false template.toList) :=
      write_scan false [] template.toList
    refine ⟨?_, ?_, canonical_parse template⟩
    · intro hclosed
      rw [← endsInside_false_iff, Bool.not_eq_true] at hclosed
      rw [hwrite, hclosed, closing, if_neg Bool.false_ne_true, List.append_nil]
    · intro hunclosed
      rw [← endsInside_false_iff] at hunclosed
      rw [hwrite, hunclosed, closing, if_pos rfl]
  · intro segments h
    rw [parse, String.toList_ofList, scan_write h]

theorem parse_write_exact_pets :
  ¬Unclosed "/pets/\x7bid\x7d\x7d/toys".toList
    ∧ write (parse "/pets/\x7bid\x7d\x7d/toys") = "/pets/\x7bid\x7d\x7d/toys".toList
    ∧ Unclosed "/\x7ba\x7d\x7bb\x7bc".toList
    ∧ write (parse "/\x7ba\x7d\x7bb\x7bc") = "/\x7ba\x7d\x7bb\x7bc".toList ++ ['\x7d']
    ∧ Canonical [.parameter [], .literal ['\x7d', '/'], .parameter ['\x7b']]
    ∧ parse (String.ofList (write [.parameter [], .literal ['\x7d', '/'], .parameter ['\x7b']]))
      = [.parameter [], .literal ['\x7d', '/'], .parameter ['\x7b']]
  := by
  have hclosed : ¬Unclosed "/pets/\x7bid\x7d\x7d/toys".toList := by decide
  have hunclosed : Unclosed "/\x7ba\x7d\x7bb\x7bc".toList := by decide
  have hcanonical :
      Canonical [.parameter [], .literal ['\x7d', '/'], .parameter ['\x7b']] := by
    constructor
    · simp [Tidy]
    · simp [Segment.IsClean]
  obtain ⟨hwrite, hparse⟩ := parse_write_exact
  exact ⟨hclosed, (hwrite _).1 hclosed, hunclosed, (hwrite _).2.1 hunclosed, hcanonical,
    hparse _ hcanonical⟩

end Template

end ServiceBindings
