import Mathlib.Data.List.Basic
import Mathlib.Tactic.Use
import ServiceBindings.Route.Tree

/-!
# The tree of routes, without the loop

Of a route, only where it ends and the steps to there matter for its place in a tree.
`RouteNode.build` says which edges a node has for what is left of its routes: one for each character
that they go on with, whose text is the longest one that its routes share, and one for all that go
on with a capture.  In the segments of a template no literal text is empty and no two follow each
other, so that the first segment is the text that a route goes on with.
-/

namespace ServiceBindings

namespace Template

/-! ### Tidy segments -/

/-- Whether no literal text is empty and no two literal texts follow each other. -/
def Tidy : List Segment → Prop
  | [] => True
  | .parameter _ :: segments => Tidy segments
  | .literal text :: segments =>
    text ≠ [] ∧ (∀ other, segments.head? ≠ some (.literal other)) ∧ Tidy segments

theorem Tidy.closeLiteral {segments : List Segment} (h : Tidy segments)
    (hhead : ∀ other, segments.head? ≠ some (.literal other)) (text : List Char) :
  Tidy (closeLiteral text segments)
  := by
  unfold Template.closeLiteral
  split
  case isTrue => apply h
  case isFalse htext =>
    refine ⟨?_, hhead, h⟩
    rintro rfl
    apply htext rfl

/-- What is read inside of a parameter starts with that parameter. -/
theorem head?_scan_inside (part cs : List Char) (other : List Char) :
  (scan true part cs).head? ≠ some (.literal other)
  := by
  induction cs generalizing part with
  | nil => simp [scan]
  | cons c cs ih =>
      rw [scan, if_pos rfl]
      split
      case isTrue => simp
      case isFalse => apply ih

theorem tidy_scan (inside : Bool) (part cs : List Char) : Tidy (scan inside part cs) := by
  induction cs generalizing inside part with
  | nil =>
      cases inside with
      | true => trivial
      | false =>
          have hnil : Tidy [] := trivial
          apply hnil.closeLiteral (by simp)
  | cons c cs ih =>
      cases inside with
      | true =>
          rw [scan, if_pos rfl]
          split
          case isTrue => apply ih
          case isFalse => apply ih
      | false =>
          rw [scan, if_neg Bool.false_ne_true]
          split
          case isTrue => apply (ih true []).closeLiteral (head?_scan_inside [] cs)
          case isFalse => apply ih

/-- The segments of a template are tidy. -/
theorem tidy_parse (template : String) : Tidy (parse template) :=
  tidy_scan false [] template.toList

end Template

namespace RouteNode

/-! ### What is left of routes -/

/-- What is left of a route: where it ends and the steps before that. -/
abbrev Remainder := Terminal × List Step

/-- The literal text that steps start with. -/
def leadingText : List Step → List Char
  | .char c :: steps => c :: leadingText steps
  | _ => []

/-- The longest literal text that all remainders start with. -/
def sharedText : List Remainder → List Char
  | [] => []
  | [(_, steps)] => leadingText steps
  | (_, steps) :: rest => commonStart (leadingText steps) (sharedText rest)

/-- The character that a remainder goes on with. -/
def nextChar? : Remainder → Option Char
  | (_, .char c :: _) => some c
  | _ => none

/-- The name that a remainder goes on by capturing, with what is left after that. -/
def nextCapture? : Remainder → Option (String × Remainder)
  | (terminal, .capture name :: steps) => some (name, terminal, steps)
  | _ => none

/-- The end of a remainder without steps. -/
def ended? : Remainder → Option Terminal
  | (terminal, []) => some terminal
  | _ => none

/-- The characters that remainders go on with, in order of first appearance. -/
def firstChars (routes : List Remainder) : List Char :=
  (routes.filterMap nextChar?).eraseDups

/-- The remainders that go on with a character. -/
def startingWith (routes : List Remainder) (c : Char) : List Remainder :=
  routes.filter fun route => nextChar? route = some c

/-- A remainder without its first steps. -/
def advance (count : Nat) (route : Remainder) : Remainder :=
  (route.1, route.2.drop count)

/-- The node of remainders with at most `depth` steps: an edge for each character that they go on
with, which has the text that they share, and an edge for those that go on with a capture. -/
def build : Nat → List Remainder → RouteNode
  | 0, routes => mk (routes.filterMap ended?) [] none
  | depth + 1, routes =>
    let captures := routes.filterMap nextCapture?
    mk (routes.filterMap ended?)
      ((firstChars routes).map fun c =>
        let group := startingWith routes c
        let text := sharedText group
        (text, build depth (group.map (advance text.length))))
      (if captures.isEmpty then none
        else some ((captures.map (·.1)).eraseDups, build depth (captures.map (·.2))))

/-- What is left of a route before its first step. -/
def remainder (route : Route) : Remainder :=
  (⟨route.endpoint, route.verb⟩, route.steps)

/-- What is left of routes before the first step. -/
def remainders (routes : List Route) : List Remainder :=
  routes.map remainder

/-- The number of steps of the longest of some routes. -/
def deepest (sources : List Route) : Nat :=
  ((remainders sources).map fun route => route.2.length).foldl max 0

/-! ### Shared text -/

/-- Steps start with the literal text that is read off them. -/
theorem leadingText_append (steps : List Step) :
  ∃ rest, steps = (leadingText steps).map .char ++ rest
  := by
  induction steps with
  | nil => use []; rfl
  | cons step steps ih =>
      cases step with
      | char c =>
          obtain ⟨rest, hrest⟩ := ih
          use rest
          rw [leadingText, List.map_cons, List.cons_append, ← hrest]
      | capture name => use .capture name :: steps; rfl

theorem commonStart_left (as bs : List Char) :
  commonStart as bs <+: as
  := by
  fun_induction commonStart as bs with
  | case1 as a bs ih => apply (List.prefix_cons_inj a).mpr ih
  | case2 => apply List.nil_prefix
  | case3 => apply List.nil_prefix

theorem commonStart_right (as bs : List Char) :
  commonStart as bs <+: bs
  := by
  fun_induction commonStart as bs with
  | case1 as a bs ih => apply (List.prefix_cons_inj a).mpr ih
  | case2 => apply List.nil_prefix
  | case3 => apply List.nil_prefix

theorem prefix_commonStart {text as bs : List Char} :
  text <+: commonStart as bs ↔ text <+: as ∧ text <+: bs
  := by
  constructor
  · intro h
    apply And.intro (h.trans (commonStart_left as bs)) (h.trans (commonStart_right as bs))
  · rintro ⟨⟨more, rfl⟩, hbs⟩
    induction text generalizing bs with
    | nil => apply List.nil_prefix
    | cons c text ih =>
        obtain ⟨more', rfl⟩ := hbs
        rw [List.cons_append, List.cons_append, commonStart, if_pos rfl, List.cons_prefix_cons]
        use rfl
        apply ih (List.prefix_append text more')

/-- What remainders share is the longest text that they all start with. -/
theorem prefix_sharedText {text : List Char} {routes : List Remainder} (hne : routes ≠ []) :
  text <+: sharedText routes ↔ ∀ route ∈ routes, text <+: leadingText route.2
  := by
  fun_induction sharedText routes with
  | case1 => apply absurd rfl hne
  | case2 terminal steps => simp
  | case3 terminal steps rest hrest ih =>
      have hne : rest ≠ [] := by
        rintro rfl
        apply hrest rfl
      rw [prefix_commonStart, ih hne, List.forall_mem_cons]

theorem sharedText_prefix {routes : List Remainder} {route : Remainder} (h : route ∈ routes) :
  sharedText routes <+: leadingText route.2 :=
  (prefix_sharedText (List.ne_nil_of_mem h)).mp List.prefix_rfl route h

/-- A remainder consists of steps over the shared text and what is left after them. -/
theorem steps_eq_sharedText {routes : List Remainder} {route : Remainder} (h : route ∈ routes) :
  route.2 = (sharedText routes).map .char ++ route.2.drop (sharedText routes).length
  := by
  obtain ⟨rest, hsteps⟩ := leadingText_append route.2
  obtain ⟨more, hmore⟩ := sharedText_prefix h
  rw [hsteps, ← hmore, List.map_append, List.append_assoc, List.drop_left' (List.length_map _)]

/-- Remainders that go on with the same character share a text that starts with it. -/
theorem head_sharedText {routes : List Remainder} {c : Char} (hne : routes ≠ [])
    (h : ∀ route ∈ routes, nextChar? route = some c) :
  (sharedText routes).head? = some c
  := by
  have hleading : ∀ route ∈ routes, (leadingText route.2).head? = some c := by
    rintro ⟨terminal, steps⟩ hroute
    have hnext := h _ hroute
    match steps with
    | .char _ :: _ => simpa [nextChar?, leadingText] using hnext
    | .capture _ :: _ => cases hnext
    | [] => cases hnext
  fun_induction sharedText routes with
  | case1 => apply absurd rfl hne
  | case2 terminal steps => apply hleading _ (List.mem_singleton_self _)
  | case3 terminal steps rest hrest ih =>
      have hfirst := hleading _ List.mem_cons_self
      have hrest := ih hrest
        (fun route hroute => h route (List.mem_cons_of_mem _ hroute))
        (fun route hroute => hleading route (List.mem_cons_of_mem _ hroute))
      obtain ⟨as, has⟩ := List.head?_eq_some_iff.mp hfirst
      obtain ⟨bs, hbs⟩ := List.head?_eq_some_iff.mp hrest
      rw [has, hbs, commonStart, if_pos rfl, List.head?_cons]

/-! ### Edges of a built node -/

/-- The literal edge of a node of `build` for a character. -/
def literalEdge (depth : Nat) (routes : List Remainder) (c : Char) : List Char × RouteNode :=
  (sharedText (startingWith routes c),
    build depth ((startingWith routes c).map (advance (sharedText (startingWith routes c)).length)))

/-- The names by which routes go on capturing, each once. -/
def captureNames (routes : List Remainder) : List String :=
  ((routes.filterMap nextCapture?).map (·.1)).eraseDups

/-- What the routes that go on with a capture are after it. -/
def afterCapture (routes : List Remainder) : List Remainder :=
  (routes.filterMap nextCapture?).map (·.2)

theorem nextChar_eq_some {route : Remainder} {c : Char} :
  nextChar? route = some c ↔ route.2.head? = some (.char c)
  := by
  match route with
  | (_, .char _ :: _) => simp [nextChar?]
  | (_, .capture _ :: _) => simp [nextChar?]
  | (_, []) => simp [nextChar?]

theorem mem_startingWith {routes : List Remainder} {route : Remainder} {c : Char} :
  route ∈ startingWith routes c ↔ route ∈ routes ∧ route.2.head? = some (.char c)
  := by
  rw [startingWith, List.mem_filter, decide_eq_true_iff, nextChar_eq_some]

theorem mem_firstChars {routes : List Remainder} {c : Char} :
  c ∈ firstChars routes ↔ startingWith routes c ≠ []
  := by
  simp [firstChars, startingWith, List.filter_eq_nil_iff]

/-- The text of the edge for a character starts with it. -/
theorem literalEdge_head (depth : Nat) {routes : List Remainder} {c : Char}
    (h : c ∈ firstChars routes) :
  (literalEdge depth routes c).1.head? = some c
  := by
  apply head_sharedText (mem_firstChars.mp h)
  intro route hroute
  apply nextChar_eq_some.mpr (mem_startingWith.mp hroute).2

theorem literals_build_succ (depth : Nat) (routes : List Remainder) :
  (build (depth + 1) routes).literals = (firstChars routes).map (literalEdge depth routes)
  := rfl

theorem parameter_build_succ (depth : Nat) (routes : List Remainder) :
  (build (depth + 1) routes).parameter = if (routes.filterMap nextCapture?).isEmpty then none
    else some (captureNames routes, build depth (afterCapture routes))
  := rfl

theorem parameter_build_of_captures (depth : Nat) {routes : List Remainder}
    (h : routes.filterMap nextCapture? ≠ []) :
  (build (depth + 1) routes).parameter
    = some (captureNames routes, build depth (afterCapture routes))
  := by
  rw [parameter_build_succ, if_neg (by simpa using h)]

/-- A parameter edge is for routes that go on with a capture. -/
theorem parameter_build_eq_some {depth : Nat} {routes : List Remainder} {names : List String}
    {child : RouteNode} (h : (build (depth + 1) routes).parameter = some (names, child)) :
  afterCapture routes ≠ [] ∧ names = captureNames routes ∧ child = build depth (afterCapture routes)
  := by
  rw [parameter_build_succ] at h
  split at h
  case isTrue => cases h
  case isFalse hcaptures =>
    cases h
    rw [afterCapture, ne_eq, List.map_eq_nil_iff, ← List.isEmpty_iff]
    use hcaptures

theorem terminals_build (depth : Nat) (routes : List Remainder) :
  (build depth routes).terminals = routes.filterMap ended?
  := by
  cases depth with
  | zero => rfl
  | succ depth => rfl

/-! ### Routes before the first step -/

theorem mem_remainders {sources : List Route} {route : Route} (h : route ∈ sources) :
  (⟨route.endpoint, route.verb⟩, route.steps) ∈ remainders sources :=
  List.mem_map_of_mem h

theorem le_foldl_max {lengths : List Nat} {n start : Nat} (h : n ≤ start ∨ n ∈ lengths) :
  n ≤ lengths.foldl max start
  := by
  induction lengths generalizing start with
  | nil =>
      obtain h | h := h
      · apply h
      · cases h
  | cons m lengths ih =>
      rw [List.foldl_cons]
      apply ih
      obtain h | h := h
      · left
        apply Nat.le_trans h (Nat.le_max_left start m)
      · obtain rfl | h := List.mem_cons.mp h
        · left
          apply Nat.le_max_right start n
        · right
          apply h

theorem length_le_deepest {sources : List Route} :
  ∀ route ∈ remainders sources, route.2.length ≤ deepest sources :=
  fun _ hroute => le_foldl_max (Or.inr (List.mem_map_of_mem hroute))

end RouteNode

end ServiceBindings
