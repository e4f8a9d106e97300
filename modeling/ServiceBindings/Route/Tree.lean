import ServiceBindings.Route.Template

/-!
# Route trees

Routes merged by their common beginnings. The routes at a node are sorted one after the other: a
route joins the first group of literal text that it shares a beginning with, and the text of the
group is cut to what they share. All parameters at one place are a single edge that binds every name
used there.
-/

namespace ServiceBindings

/-- An endpoint at the place where its route ends. -/
structure Terminal where
  endpoint : Nat
  verb : Verb
  deriving DecidableEq, Repr

/-- A node of a route tree: the routes that end there, the literal edges, and the parameter edge. -/
inductive RouteNode where
  | mk (terminals : List Terminal) (literals : List (List Char × RouteNode))
    (parameter : Option (List String × RouteNode))
  deriving Repr

namespace RouteNode

/-- The routes that end at a node. -/
def terminals : RouteNode → List Terminal
  | mk terminals _ _ => terminals

/-- The literal edges of a node. -/
def literals : RouteNode → List (List Char × RouteNode)
  | mk _ literals _ => literals

/-- The parameter edge of a node. -/
def parameter : RouteNode → Option (List String × RouteNode)
  | mk _ _ parameter => parameter

/-! ### Sorting -/

/-- The longest text that two texts start with. -/
def commonStart : List Char → List Char → List Char
  | a :: as, b :: bs => if a = b then a :: commonStart as bs else []
  | _, _ => []

/-- Routes by what they go on with: their ends, groups of those that go on with literal text, each
with the text that its routes share, and those that go on with a parameter, with its names. -/
structure Sorting where
  terminals : List Terminal := []
  groups : List (List Char × List Route) := []
  parameter : Option (List String × List Route) := none
  deriving DecidableEq, Repr

/-- Puts a route that goes on with a text into the first group that shares a beginning with the
text, and cuts the text of the group to what is shared; if there is none, the route makes a group of
its own. -/
def joinGroup (text : List Char) (route : Route) :
    List (List Char × List Route) → List (List Char × List Route)
  | [] => [(text, [route])]
  | (key, members) :: rest =>
    let shared := commonStart key text
    if shared.isEmpty then (key, members) :: joinGroup text route rest
    else (shared, members ++ [route]) :: rest

/-- Adds a name to the names of a parameter, unless it is one of them. -/
def addName (names : List String) (name : String) : List String :=
  if name ∈ names then names else names ++ [name]

/-- Puts a route where it belongs. -/
def Sorting.add (sorting : Sorting) (route : Route) : Sorting :=
  match route.segments with
  | [] => { sorting with terminals := sorting.terminals ++ [⟨route.endpoint, route.verb⟩] }
  | .literal text :: _ => { sorting with groups := joinGroup text route sorting.groups }
  | .parameter name :: segments =>
    let (names, members) := sorting.parameter.getD ([], [])
    { sorting with
      parameter := some (addName names (String.ofList name), members ++ [{ route with segments }]) }

/-- The routes sorted one after the other. -/
def sort (routes : List Route) : Sorting :=
  routes.foldl Sorting.add {}

/-! ### Building -/

/-- A route without a text that its first segment starts with; a segment that is used up is
dropped. -/
def stripKey (key : List Char) (route : Route) : Route :=
  match route.segments with
  | .literal text :: segments =>
    if text.length = key.length then { route with segments }
    else { route with segments := .literal (text.drop key.length) :: segments }
  | _ => route

/-- The node of routes whose weight is at most `depth`. -/
def ofRoutesWithin : Nat → List Route → RouteNode
  | 0, routes => mk (sort routes).terminals [] none
  | depth + 1, routes =>
    let sorted := sort routes
    mk sorted.terminals
      (sorted.groups.map fun (key, members) =>
        (key, ofRoutesWithin depth (members.map (stripKey key))))
      (sorted.parameter.map fun (names, members) => (names, ofRoutesWithin depth members))

/-- The number of segments and steps of a route, which gets less with each edge. -/
def weight (route : Route) : Nat :=
  route.segments.length + route.steps.length

/-- The tree of a list of routes. -/
def ofRoutes (routes : List Route) : RouteNode :=
  ofRoutesWithin ((routes.map weight).foldl max 0) routes

/-! ### Resolving -/

end RouteNode

/-- The endpoint that serves a request and the captured texts by name. -/
structure RouteMatch where
  endpoint : Nat
  bindings : List (String × List Char)
  deriving DecidableEq, Repr

/-- Why no endpoint serves a request. -/
inductive RouteFailure where
  | notFound
  | methodNotAllowed
  deriving DecidableEq, Repr

/-- The text for a request that no endpoint serves. -/
def RouteFailure.message : RouteFailure → String
  | notFound => "no route matches the path"
  | methodNotAllowed => "the path exists but not for this method"

namespace RouteNode

/-- The text after a given beginning. -/
def stripStart : List Char → List Char → Option (List Char)
  | [], path => some path
  | a :: as, b :: bs => if a = b then stripStart as bs else none
  | _ :: _, [] => none

/-- The answer of the routes that end where the path ends. -/
def choose (verb : Verb) (bindings : List (String × List Char)) (terminals : List Terminal) :
    Except RouteFailure RouteMatch :=
  if terminals.isEmpty then .error .notFound
  else
    match terminals.find? fun terminal => terminal.verb = verb with
    | some terminal => .ok ⟨terminal.endpoint, bindings⟩
    | none => .error .methodNotAllowed

/-- Whether a character may be captured. -/
def isCaptured (c : Char) : Bool := c != '/'

mutual

/-- Follows a path from a node: the first literal edge that fits is taken, and the parameter edge
only if none fits. There is no way back. -/
def resolveFrom (verb : Verb) : RouteNode → List Char → List (String × List Char) →
    Except RouteFailure RouteMatch
  | mk terminals literals parameter, path, bindings =>
    if path.isEmpty then choose verb bindings terminals
    else
      match resolveLiterals verb literals path bindings with
      | some result => result
      | none => resolveParameter verb parameter path bindings

/-- The answer below the first literal edge that fits. -/
def resolveLiterals (verb : Verb) : List (List Char × RouteNode) → List Char →
    List (String × List Char) → Option (Except RouteFailure RouteMatch)
  | [], _, _ => none
  | (text, node) :: rest, path, bindings =>
    match stripStart text path with
    | some path => some (resolveFrom verb node path bindings)
    | none => resolveLiterals verb rest path bindings

/-- The answer below the parameter edge, which captures what comes before the next slash. -/
def resolveParameter (verb : Verb) : Option (List String × RouteNode) → List Char →
    List (String × List Char) → Except RouteFailure RouteMatch
  | none, _, _ => .error .notFound
  | some (names, node), path, bindings =>
    let captured := path.takeWhile isCaptured
    if captured.isEmpty then .error .notFound
    else
      resolveFrom verb node (path.dropWhile isCaptured)
        (bindings ++ names.map fun name => (name, captured))

end

/-- The endpoint that serves a method and a path. -/
def resolve (tree : RouteNode) (verb : Verb) (path : List Char) : Except RouteFailure RouteMatch :=
  tree.resolveFrom verb path []

/-! ### Duplicates -/

/-- The routes of a node that come after one of the same method, with the first of that method. -/
def shadowed : List Terminal → List Terminal → List (Terminal × Terminal)
  | _, [] => []
  | before, terminal :: rest =>
    let pair :=
      match before.find? fun kept => kept.verb = terminal.verb with
      | some kept => [(kept, terminal)]
      | none => []
    pair ++ shadowed (before ++ [terminal]) rest

mutual

/-- The routes that another route of the same method and place takes all requests of. -/
def duplicates : RouteNode → List (Terminal × Terminal)
  | mk terminals literals parameter =>
    shadowed [] terminals ++ literalDuplicates literals ++ parameterDuplicates parameter

/-- The duplicates below literal edges. -/
def literalDuplicates : List (List Char × RouteNode) → List (Terminal × Terminal)
  | [] => []
  | (_, node) :: rest => duplicates node ++ literalDuplicates rest

/-- The duplicates below a parameter edge. -/
def parameterDuplicates : Option (List String × RouteNode) → List (Terminal × Terminal)
  | none => []
  | some (_, node) => duplicates node

end

end RouteNode

end ServiceBindings
