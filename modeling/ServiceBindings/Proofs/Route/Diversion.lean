import ServiceBindings.Proofs.Route.Binding
import ServiceBindings.Proofs.Route.Exactness

/-!
# Requests that keep to their route

A path that is made from a template is not always routed: where the template has a parameter, the
path may go on with the text of a literal edge, which a walk prefers and does not come back from.
Unless it is diverted in this way, a walk along the path of a route ends where the route ends.
-/

namespace ServiceBindings

namespace RouteNode

/-- `Diverts node steps path`: on the way that the steps take from the node, the path comes to a
capture where it starts with the text of a literal edge. -/
inductive Diverts : RouteNode → List Step → List Char → Prop where
  | here {node : RouteNode} {edge : List Char × RouteNode} {name : String} {steps : List Step}
      {path : List Char} :
      edge ∈ node.literals → edge.1 <+: path → Diverts node (.capture name :: steps) path
  | literal {node child : RouteNode} {text : List Char} {steps rest : List Step}
      {path after : List Char} :
      (text, child) ∈ node.literals → steps = text.map .char ++ rest → path = text ++ after →
      Diverts child rest after → Diverts node steps path
  | parameter {node child : RouteNode} {names : List String} {name : String} {steps : List Step}
      {path : List Char} :
      node.parameter = some (names, child) → Diverts child steps (path.dropWhile isCaptured) →
      Diverts node (.capture name :: steps) path

/-- A walk that is not diverted ends where the route ends whose path it follows. -/
theorem Walks.chosen_of_not_diverts {depth : Nat} {routes : List Remainder} {path : List Char}
    {chosen : List Step → Bool} {more : List (String × List Char)} {route : Remainder}
    {own : List (String × List Char)} (hwalk : Walks depth routes path chosen more)
    (hroute : route ∈ routes) (hlength : route.2.length ≤ depth) (hseparated : Separated route.2)
    (hfits : Fits route.2 path own) (h : ¬Diverts (build depth routes) route.2 path) :
  chosen route.2 = true
  := by
  induction hwalk generalizing route own with
  | finish =>
      rw [hfits.steps_nil]
      rfl
  | leaf =>
      rw [List.length_eq_zero_iff.mp (Nat.le_zero.mp hlength)] at hfits
      cases hfits
  | @literal depth routes c path rest chosen more hc hpath _ ih =>
      have hedge : literalEdge depth routes c ∈ (build (depth + 1) routes).literals :=
        List.mem_map_of_mem hc
      obtain ⟨hgroup, rest', hpath', hrest⟩ | ⟨name, steps, hsteps⟩ :=
        fits_cons_cases depth hroute hfits
      · obtain rfl := List.append_cancel_left (hpath.symm.trans hpath')
        have hchosen := ih (List.mem_map_of_mem hgroup) (length_advance_le hc hlength)
          (hseparated.drop _) hrest (fun hdiverts =>
            h (Diverts.literal hedge (steps_eq_sharedText hgroup) hpath hdiverts))
        apply chosenAfterText_eq_true.mpr ⟨(mem_startingWith.mp hgroup).2, hchosen⟩
      · -- The edge would divert the walk at the capture.
        rw [hsteps] at h
        apply absurd (Diverts.here hedge ⟨rest, hpath.symm⟩) h
  | @parameter depth routes c path chosen more hfit hcaptures _ _ ih =>
      obtain ⟨name, steps, hsteps⟩ := capture_of_fits hfit route hroute own hfits
      have hcapture := mem_nextCaptures hroute hsteps
      rw [hsteps] at hlength hseparated hfits h
      obtain ⟨-, own, -, hown⟩ := hfits.capture_of_separated hseparated
      have hchosen := ih (List.mem_map_of_mem hcapture) (Nat.le_of_succ_le_succ hlength)
        hseparated.2 hown (fun hdiverts => h (Diverts.parameter
          (parameter_build_of_captures depth hcaptures) hdiverts))
      apply chosenAfterCapture_eq_true.mpr ⟨name, steps, hsteps, hchosen⟩
  | nowhere hfit hnowhere =>
      apply absurd hfits (not_fits_of_nowhere hfit hnowhere hroute hseparated)

/-- Where a walk ends, a request is served if a route of its method ends there. -/
theorem exists_choose_eq_ok {verb : Verb} (bindings : List (String × List Char))
    {terminals : List Terminal} {terminal : Terminal} (hterminal : terminal ∈ terminals)
    (hverb : terminal.verb = verb) :
  ∃ found, choose verb bindings terminals = .ok found
  := by
  have hfind : (terminals.find? fun terminal => terminal.verb = verb).isSome :=
    List.find?_isSome.mpr ⟨terminal, hterminal, decide_eq_true hverb⟩
  obtain ⟨first, hfirst⟩ := Option.isSome_iff_exists.mp hfind
  use ⟨first.endpoint, bindings⟩
  rw [choose_eq_ok]
  use rfl, first

/-- A route whose path is not diverted has its requests served. -/
theorem exists_resolve_of_not_diverts {routes : List Route} {route : Route} {path : List Char}
    {own : List (String × List Char)} (htidy : ∀ route ∈ routes, Template.Tidy route.segments)
    (hroute : route ∈ routes) (hseparated : Separated route.steps)
    (hfits : Fits route.steps path own) (h : ¬Diverts (ofRoutes routes) route.steps path) :
  ∃ found, (ofRoutes routes).resolve route.verb path = .ok found
  := by
  rw [ofRoutes_eq_build htidy] at h
  have hremainder := mem_remainders hroute
  obtain ⟨chosen, more, hwalk⟩ := exists_walks (deepest routes) (remainders routes) path
  have hchosen := hwalk.chosen_of_not_diverts hremainder (length_le_deepest _ hremainder) hseparated
    hfits h
  rw [hwalk.resolve htidy]
  apply exists_choose_eq_ok _ (List.mem_map_of_mem (List.mem_filter.mpr ⟨hroute, hchosen⟩)) rfl

/-- A path that is made from the template of a route, with delimited parameters replaced by
capturable texts, is served for the method of the route by an endpoint of this method whose template
the path matches too, unless the path is diverted at one of the parameters. -/
theorem resolve_filled (sources : List (Nat × Verb × String)) (route : Route)
    (hroute : route ∈ Route.ofTemplates sources) (hdelimited : Template.Delimited route.segments)
    (values : List (List Char)) (hvalues : ∀ value ∈ values, Capturable value) (path : List Char)
    (hfill : Template.fill route.segments values = some path)
    (hdiverts : ¬Diverts (ofRoutes (Route.ofTemplates sources)) route.steps path) :
  ∃ found, (ofRoutes (Route.ofTemplates sources)).resolve route.verb path = .ok found
    ∧ ∃ other ∈ Route.ofTemplates sources, other.endpoint = found.endpoint
      ∧ other.verb = route.verb ∧ other.Accepts path
  := by
  obtain ⟨found, hfound⟩ := exists_resolve_of_not_diverts (fun _ => Route.tidy_of_mem) hroute
    hdelimited.separated (Template.fits_of_fill hvalues hfill) hdiverts
  obtain ⟨other, hother, hendpoint, hverb, values, hvalues, hfill, -⟩ :=
    exists_of_resolve_eq_ok (fun _ => Route.tidy_of_mem) hfound
  use found, hfound, other, hother, hendpoint, hverb, values, hvalues, hfill

/-- A value that only starts like a literal edge does not divert the path. -/
theorem resolve_filled_mint :
  ∃ found, (ofRoutes (Route.ofTemplates [(0, .get, "/pets/\x7bid\x7d"),
      (1, .get, "/pets/mine")])).resolve .get "/pets/mint".toList = .ok found
    ∧ ∃ other ∈ Route.ofTemplates [(0, .get, "/pets/\x7bid\x7d"), (1, .get, "/pets/mine")],
      other.endpoint = found.endpoint ∧ other.verb = .get ∧ other.Accepts "/pets/mint".toList
  := by
  apply resolve_filled _ (Route.ofTemplate 0 .get "/pets/\x7bid\x7d") List.mem_cons_self
    (by decide +kernel) ["mint".toList] _ _ (by decide +kernel)
  · have hsteps : (Route.ofTemplate 0 .get "/pets/\x7bid\x7d").steps
        = "/pets/".toList.map .char ++ [.capture "id"] := by
      decide +kernel
    have htree : ofRoutes (Route.ofTemplates [(0, .get, "/pets/\x7bid\x7d"),
        (1, .get, "/pets/mine")])
          = mk [] [("/pets/".toList, mk [] [("mine".toList, mk [⟨1, .get⟩] [] none)]
            (some (["id"], mk [⟨0, .get⟩] [] none)))] none := by
      rfl
    have hpath : "/pets/mint".toList = "/pets/".toList ++ "mint".toList := by
      decide +kernel
    rw [hsteps, htree, hpath]
    rintro (_ | ⟨hedge, hrest, hafter, hdiverts⟩ | _)
    obtain ⟨rfl, rfl⟩ := Prod.mk.inj (List.mem_singleton.mp hedge)
    obtain rfl := List.append_cancel_left hrest
    obtain rfl := List.append_cancel_left hafter
    rcases hdiverts with ⟨hedge, hmine⟩ | ⟨hedge, hrest, -, -⟩ | ⟨hparameter, hdiverts⟩
    · obtain rfl := List.mem_singleton.mp hedge
      revert hmine
      decide +kernel
    · obtain ⟨rfl, rfl⟩ := Prod.mk.inj (List.mem_singleton.mp hedge)
      cases hrest
    · obtain ⟨rfl, rfl⟩ := Prod.mk.inj (Option.some.inj hparameter)
      rcases hdiverts with _ | ⟨hedge, -, -, -⟩ | _
      cases hedge
  · rw [List.forall_mem_singleton]
    constructor <;> decide

/-- The text of a literal edge diverts the path of a value that goes on after it, and nothing is
found. -/
theorem resolve_diverted_minerva :
  Template.Delimited (Template.parse "/pets/\x7bid\x7d") ∧ Capturable "minerva".toList
    ∧ Template.fill (Template.parse "/pets/\x7bid\x7d") ["minerva".toList]
        = some "/pets/minerva".toList
    ∧ (ofRoutes (Route.ofTemplates [(0, .get, "/pets/\x7bid\x7d"),
        (1, .get, "/pets/mine")])).resolve .get "/pets/minerva".toList = .error .notFound
  := by
  unfold Capturable
  decide +kernel

end RouteNode

end ServiceBindings
