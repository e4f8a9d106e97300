import ServiceBindings.Proofs.Route.Grouping
import ServiceBindings.Proofs.Route.Matching

/-!
# Walks through a route tree

Following a path through the tree of some routes ends at a node or leads nowhere.  `Arrives` says
which of the routes end where the walk ends and what has been bound on the way; the lemmas of this
module say how a walk starts at a node of `build` and goes on below one of its edges.
-/

namespace ServiceBindings

namespace RouteNode

/-! ### Following literal edges -/

theorem stripStart_eq_some {text path rest : List Char} :
  stripStart text path = some rest ↔ path = text ++ rest
  := by
  fun_induction stripStart text path with
  | case1 path => simp
  | case2 as b bs ih => simp [ih]
  | case3 a as b bs hne =>
      simp only [reduceCtorEq, List.cons_append, List.cons.injEq, false_iff, not_and]
      rintro rfl
      apply absurd rfl hne
  | case4 => simp

/-- The literal edges are tried in turn. -/
theorem resolveLiterals_eq_findSome (verb : Verb) (edges : List (List Char × RouteNode))
    (path : List Char) (bindings : List (String × List Char)) :
  resolveLiterals verb edges path bindings
    = edges.findSome? fun edge =>
        (stripStart edge.1 path).map fun rest => edge.2.resolveFrom verb rest bindings
  := by
  induction edges with
  | nil => rfl
  | cons edge edges ih =>
      obtain ⟨text, node⟩ := edge
      rw [resolveLiterals, List.findSome?_cons]
      cases hstrip : stripStart text path with
      | none => simpa using ih
      | some rest => rfl

/-- The only item of a list at which a function is defined is the one it is found at. -/
theorem findSome_eq_of_unique {α β : Type} [DecidableEq α] {f : α → Option β} {a : α}
    {items : List α} (h : ∀ x ∈ items, x ≠ a → f x = none) :
  items.findSome? f = if a ∈ items then f a else none
  := by
  induction items with
  | nil => rfl
  | cons x items ih =>
      have ih := ih (fun y hy => h y (List.mem_cons_of_mem _ hy))
      by_cases hx : x = a
      · subst hx
        rw [List.findSome?_cons, if_pos List.mem_cons_self]
        cases hf : f x with
        | none => simp [ih, hf]
        | some b => rfl
      · rw [List.findSome?_cons, h x List.mem_cons_self hx, ih]
        simp [List.mem_cons, Ne.symm hx]

/-- From a node of `build`, a path can only go on below the edge for its first character. -/
theorem resolveLiterals_build (verb : Verb) (depth : Nat) (routes : List Remainder) (c : Char)
    (path : List Char) (bindings : List (String × List Char)) :
  resolveLiterals verb (build (depth + 1) routes).literals (c :: path) bindings
    = if c ∈ firstChars routes then
        (stripStart (literalEdge depth routes c).1 (c :: path)).map fun rest =>
          (literalEdge depth routes c).2.resolveFrom verb rest bindings
      else none
  := by
  rw [resolveLiterals_eq_findSome, literals_build_succ, List.findSome?_map]
  apply findSome_eq_of_unique
  intro x hx hne
  obtain ⟨text, htext⟩ := List.head?_eq_some_iff.mp (literalEdge_head depth hx)
  simp only [Function.comp_apply, htext, stripStart, if_neg hne, Option.map_none]

/-- With something of the path left, a node tries its literal edges before its parameter edge. -/
theorem resolveFrom_cons (node : RouteNode) (verb : Verb) (c : Char) (path : List Char)
    (bindings : List (String × List Char)) :
  node.resolveFrom verb (c :: path) bindings
    = match resolveLiterals verb node.literals (c :: path) bindings with
      | some result => result
      | none => resolveParameter verb node.parameter (c :: path) bindings
  := by
  cases node with
  | mk terminals literals parameter => rfl

/-! ### Where a walk ends -/

/-- `Arrives node routes path chosen more`: following `path` from `node` ends where those of
`routes` end whose steps are `chosen`, and binds the pairs `more` on the way. -/
def Arrives (node : RouteNode) (routes : List Remainder) (path : List Char)
    (chosen : List Step → Bool) (more : List (String × List Char)) : Prop :=
  ∀ verb bindings, node.resolveFrom verb path bindings
    = choose verb (bindings ++ more) ((routes.filter fun route => chosen route.2).map (·.1))

/-- A walk that leads nowhere ends where no route ends. -/
theorem arrives_nowhere {node : RouteNode} {routes : List Remainder} {path : List Char}
    {chosen : List Step → Bool}
    (h : ∀ verb bindings, node.resolveFrom verb path bindings = .error .notFound)
    (hchosen : ∀ route ∈ routes, chosen route.2 = false) :
  Arrives node routes path chosen []
  := by
  intro verb bindings
  have hnone : routes.filter (fun route => chosen route.2) = [] := by
    apply List.filter_eq_nil_iff.mpr
    intro route hroute
    simp [hchosen route hroute]
  rw [h, hnone]
  rfl

/-- The ends of remainders are the ends of those without steps. -/
theorem filterMap_ended (routes : List Remainder) :
  routes.filterMap ended? = (routes.filter fun route => route.2.isEmpty).map (·.1)
  := by
  induction routes with
  | nil => rfl
  | cons route routes ih =>
      obtain ⟨terminal, steps⟩ := route
      cases steps with
      | nil =>
          simp only [List.filterMap_cons, ended?, ih, List.filter_cons_of_pos, List.isEmpty_nil,
            List.map_cons]
      | cons step steps =>
          rw [List.filterMap_cons_none rfl, ih, List.filter_cons_of_neg Bool.false_ne_true]

/-- At its end a path is at the routes without further steps. -/
theorem arrives_end (depth : Nat) (routes : List Remainder) :
  Arrives (build depth routes) routes [] List.isEmpty []
  := by
  intro verb bindings
  have hnode : (build depth routes).resolveFrom verb [] bindings
      = choose verb bindings (build depth routes).terminals := by
    cases build depth routes with
    | mk terminals literals parameter => rfl
  rw [hnode, terminals_build, filterMap_ended, List.append_nil]

/-- The steps that go on with a character and are chosen after a number of steps. -/
def chosenAfterText (c : Char) (count : Nat) (chosen : List Step → Bool) (steps : List Step) :
    Bool :=
  steps.head? = some (.char c) && chosen (steps.drop count)

/-- The steps that go on with a capture and are chosen after it. -/
def chosenAfterCapture (chosen : List Step → Bool) : List Step → Bool
  | .capture _ :: steps => chosen steps
  | _ => false

theorem chosenAfterText_eq_true {c : Char} {count : Nat} {chosen : List Step → Bool}
    {steps : List Step} :
  chosenAfterText c count chosen steps = true
    ↔ steps.head? = some (.char c) ∧ chosen (steps.drop count) = true
  := by
  rw [chosenAfterText, Bool.and_eq_true_iff, decide_eq_true_iff]

theorem chosenAfterCapture_eq_true {chosen : List Step → Bool} {steps : List Step} :
  chosenAfterCapture chosen steps = true
    ↔ ∃ name rest, steps = .capture name :: rest ∧ chosen rest = true
  := by
  match steps with
  | .capture _ :: _ => simp [chosenAfterCapture]
  | .char _ :: _ => simp [chosenAfterCapture]
  | [] => simp [chosenAfterCapture]

/-- The ends of the routes chosen after a capture. -/
theorem map_filter_afterCapture (routes : List Remainder) (chosen : List Step → Bool) :
  ((afterCapture routes).filter fun route => chosen route.2).map (·.1)
    = (routes.filter fun route => chosenAfterCapture chosen route.2).map (·.1)
  := by
  induction routes with
  | nil => rfl
  | cons route routes ih =>
      match route with
      | (terminal, .capture name :: steps) =>
          have hafter : afterCapture ((terminal, .capture name :: steps) :: routes)
              = (terminal, steps) :: afterCapture routes := rfl
          have hchosen : chosenAfterCapture chosen (.capture name :: steps) = chosen steps := rfl
          rw [hafter, List.filter_cons, List.filter_cons, hchosen]
          by_cases h : chosen steps
          · rw [if_pos h, if_pos h, List.map_cons, List.map_cons, ih]
          · rw [if_neg h, if_neg h, ih]
      | (terminal, .char c :: steps) =>
          have hafter : afterCapture ((terminal, .char c :: steps) :: routes)
              = afterCapture routes := rfl
          rw [hafter, ih, List.filter_cons_of_neg Bool.false_ne_true]
      | (terminal, []) =>
          have hafter : afterCapture ((terminal, []) :: routes) = afterCapture routes := rfl
          rw [hafter, ih, List.filter_cons_of_neg Bool.false_ne_true]

/-- A walk goes on below the edge for the first character of the path, if its text comes next. -/
theorem arrives_literal {depth : Nat} {routes : List Remainder} {c : Char} {path rest : List Char}
    {chosen : List Step → Bool} {more : List (String × List Char)} (hc : c ∈ firstChars routes)
    (hpath : c :: path = (literalEdge depth routes c).1 ++ rest)
    (h : Arrives (literalEdge depth routes c).2
      ((startingWith routes c).map (advance (literalEdge depth routes c).1.length)) rest chosen
      more) :
  Arrives (build (depth + 1) routes) routes (c :: path)
    (chosenAfterText c (literalEdge depth routes c).1.length chosen) more
  := by
  intro verb bindings
  have hliterals := resolveLiterals_build verb depth routes c path bindings
  rw [if_pos hc, stripStart_eq_some.mpr hpath, Option.map_some, h] at hliterals
  rw [resolveFrom_cons, hliterals]
  simp only [List.filter_map, List.map_map, startingWith, List.filter_filter]
  congr 2
  apply List.filter_congr
  rintro ⟨terminal, steps⟩ -
  simp [chosenAfterText, advance, nextChar_eq_some, Bool.and_comm]

/-- Where no literal edge fits, a walk goes on below the parameter edge with what comes after the
next slash. -/
theorem arrives_parameter {depth : Nat} {routes : List Remainder} {c : Char} {path : List Char}
    {chosen : List Step → Bool} {more : List (String × List Char)}
    (hliterals : ∀ verb bindings,
      resolveLiterals verb (build (depth + 1) routes).literals (c :: path) bindings = none)
    (hcaptures : routes.filterMap nextCapture? ≠ [])
    (hcaptured : (c :: path).takeWhile isCaptured ≠ [])
    (h : Arrives (build depth (afterCapture routes)) (afterCapture routes)
      ((c :: path).dropWhile isCaptured) chosen more) :
  Arrives (build (depth + 1) routes) routes (c :: path) (chosenAfterCapture chosen)
    ((captureNames routes).map (fun name => (name, (c :: path).takeWhile isCaptured)) ++ more)
  := by
  intro verb bindings
  rw [resolveFrom_cons, hliterals]
  simp only [parameter_build_succ]
  rw [if_neg (by simpa using hcaptures), resolveParameter, if_neg (by simpa using hcaptured), h,
    map_filter_afterCapture, List.append_assoc]

/-- No literal edge fits a path that does not start with the text of the edge for its first
character. -/
theorem resolveLiterals_build_none {depth : Nat} {routes : List Remainder} {c : Char}
    {path : List Char}
    (h : ¬(c ∈ firstChars routes ∧ ∃ rest, c :: path = (literalEdge depth routes c).1 ++ rest))
    (verb : Verb) (bindings : List (String × List Char)) :
  resolveLiterals verb (build (depth + 1) routes).literals (c :: path) bindings = none
  := by
  rw [resolveLiterals_build]
  by_cases hc : c ∈ firstChars routes
  · rw [if_pos hc, Option.map_eq_none_iff, Option.eq_none_iff_forall_ne_some]
    intro rest hrest
    apply h ⟨hc, rest, stripStart_eq_some.mp hrest⟩
  · rw [if_neg hc]

/-- A walk leads nowhere if no literal edge fits and nothing can be captured. -/
theorem resolveFrom_build_nowhere {depth : Nat} {routes : List Remainder} {c : Char}
    {path : List Char}
    (hliterals : ∀ verb bindings,
      resolveLiterals verb (build (depth + 1) routes).literals (c :: path) bindings = none)
    (h : routes.filterMap nextCapture? = [] ∨ (c :: path).takeWhile isCaptured = [])
    (verb : Verb) (bindings : List (String × List Char)) :
  (build (depth + 1) routes).resolveFrom verb (c :: path) bindings = .error .notFound
  := by
  rw [resolveFrom_cons, hliterals]
  simp only [parameter_build_succ]
  by_cases hcaptures : (routes.filterMap nextCapture?).isEmpty
  · rw [if_pos hcaptures, resolveParameter]
  · rw [if_neg hcaptures, resolveParameter]
    obtain h | h := h
    · apply absurd (List.isEmpty_iff.mpr h) hcaptures
    · rw [if_pos (List.isEmpty_iff.mpr h)]

/-! ### Walks -/

/-- `Walks depth routes path chosen more`: a walk along `path` in the tree of the routes ends where
those of them end whose steps are `chosen`, and binds the pairs `more` on the way.  It takes the
literal edge that fits, or else the parameter edge. -/
inductive Walks : Nat → List Remainder → List Char → (List Step → Bool) →
    List (String × List Char) → Prop where
  | finish (depth : Nat) (routes : List Remainder) : Walks depth routes [] List.isEmpty []
  | leaf {routes : List Remainder} {c : Char} {path : List Char} :
      Walks 0 routes (c :: path) (fun _ => false) []
  | literal {depth : Nat} {routes : List Remainder} {c : Char} {path rest : List Char}
      {chosen : List Step → Bool} {more : List (String × List Char)} :
      c ∈ firstChars routes → c :: path = (literalEdge depth routes c).1 ++ rest →
      Walks depth ((startingWith routes c).map (advance (literalEdge depth routes c).1.length)) rest
        chosen more →
      Walks (depth + 1) routes (c :: path)
        (chosenAfterText c (literalEdge depth routes c).1.length chosen) more
  | parameter {depth : Nat} {routes : List Remainder} {c : Char} {path : List Char}
      {chosen : List Step → Bool} {more : List (String × List Char)} :
      ¬(c ∈ firstChars routes ∧ ∃ rest, c :: path = (literalEdge depth routes c).1 ++ rest) →
      routes.filterMap nextCapture? ≠ [] → (c :: path).takeWhile isCaptured ≠ [] →
      Walks depth (afterCapture routes) ((c :: path).dropWhile isCaptured) chosen more →
      Walks (depth + 1) routes (c :: path) (chosenAfterCapture chosen)
        ((captureNames routes).map (fun name => (name, (c :: path).takeWhile isCaptured)) ++ more)
  | nowhere {depth : Nat} {routes : List Remainder} {c : Char} {path : List Char} :
      ¬(c ∈ firstChars routes ∧ ∃ rest, c :: path = (literalEdge depth routes c).1 ++ rest) →
      routes.filterMap nextCapture? = [] ∨ (c :: path).takeWhile isCaptured = [] →
      Walks (depth + 1) routes (c :: path) (fun _ => false) []

/-- There is a walk along every path. -/
theorem exists_walks (depth : Nat) (routes : List Remainder) (path : List Char) :
  ∃ chosen more, Walks depth routes path chosen more
  := by
  induction depth generalizing routes path with
  | zero =>
      cases path with
      | nil => use List.isEmpty, [], Walks.finish 0 routes
      | cons c path => use fun _ => false, [], Walks.leaf
  | succ depth ih =>
      cases path with
      | nil => use List.isEmpty, [], Walks.finish (depth + 1) routes
      | cons c path =>
          by_cases hfit : c ∈ firstChars routes
              ∧ ∃ rest, c :: path = (literalEdge depth routes c).1 ++ rest
          · obtain ⟨hc, rest, hpath⟩ := hfit
            obtain ⟨chosen, more, hwalk⟩ := ih
              ((startingWith routes c).map (advance (literalEdge depth routes c).1.length)) rest
            exact ⟨_, _, Walks.literal hc hpath hwalk⟩
          · by_cases hnowhere : routes.filterMap nextCapture? = []
                ∨ (c :: path).takeWhile isCaptured = []
            · exact ⟨_, _, Walks.nowhere hfit hnowhere⟩
            · obtain ⟨hcaptures, hcaptured⟩ := not_or.mp hnowhere
              obtain ⟨chosen, more, hwalk⟩ :=
                ih (afterCapture routes) ((c :: path).dropWhile isCaptured)
              exact ⟨_, _, Walks.parameter hfit hcaptures hcaptured hwalk⟩

/-- The tree of the routes resolves a path as the walk along it says. -/
theorem Walks.arrives {depth : Nat} {routes : List Remainder} {path : List Char}
    {chosen : List Step → Bool} {more : List (String × List Char)}
    (h : Walks depth routes path chosen more) :
  Arrives (build depth routes) routes path chosen more
  := by
  induction h with
  | finish depth routes => apply arrives_end
  | leaf =>
      apply arrives_nowhere
      · intro verb bindings
        rfl
      · intro route _
        rfl
  | literal hc hpath _ ih => apply arrives_literal hc hpath ih
  | parameter hfit hcaptures hcaptured _ ih =>
      apply arrives_parameter (resolveLiterals_build_none hfit) hcaptures hcaptured ih
  | nowhere hfit hnowhere =>
      apply arrives_nowhere (resolveFrom_build_nowhere (resolveLiterals_build_none hfit) hnowhere)
      intro route _
      rfl

end RouteNode

end ServiceBindings
