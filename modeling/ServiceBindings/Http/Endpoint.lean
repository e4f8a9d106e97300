import ServiceBindings.Diagnostic.Basic
import ServiceBindings.Naming.Identifier
import ServiceBindings.Naming.Scope
import ServiceBindings.Route.Tree
import ServiceBindings.Schema.Graph

/-!
# Endpoints

An endpoint is an HTTP operation whose operation exists. Endpoints are named after the container and
the operation, and a name that is taken gets a number, so that no two of them share a name.
-/

namespace ServiceBindings

/-- An HTTP operation with the operation that it exposes. -/
structure Endpoint where
  name : Words
  http : HttpOperation
  operation : Operation
  deriving DecidableEq, Repr

namespace Endpoint

/-- The name of an endpoint as a variant. -/
def typeName (endpoint : Endpoint) : String :=
  Identifier.escape endpoint.name.pascalCase

/-- The name of an endpoint as a module. -/
def moduleName (endpoint : Endpoint) : String :=
  Identifier.escape endpoint.name.snakeCase

/-- The method and the path template of an endpoint. -/
def signature (endpoint : Endpoint) : String :=
  endpoint.http.verb.text ++ " " ++ endpoint.http.path

/-- The identifiers of the parameters in the path template, each once. -/
def pathFields (endpoint : Endpoint) : List String :=
  ((Template.parameterNames (Template.parse endpoint.http.path)).map Identifier.valueName).eraseDups

/-- The parameters of an endpoint that carry information. -/
def parameters (graph : TypeGraph) (endpoint : Endpoint) : List HttpParameter :=
  endpoint.http.parameters.filter fun parameter => !graph.isValue parameter.type

/-! ### Collecting -/

/-- The name of a container. -/
def containerName (graph : TypeGraph) : Container → Words
  | .group id => Words.parse (graph.namespaceName id)
  | .interface id => (graph.declaredName? id).getD {}

/-- The name itself for `1`, and the name followed by the number for greater ones. -/
def numbered (base : Words) (n : Nat) : Words :=
  if n = 1 then base else base.join (Words.parse (toString n))

/-- The first of `base`, `base_2`, `base_3`, ... whose spelling is not taken. -/
def freeName (taken : List String) (base : Words) : Words :=
  NameScope.firstFree (fun name : Words => name.snakeCase ∈ taken) (numbered base) taken.length 1

/-- The endpoints of HTTP operations when some spellings are taken, and a problem for each operation
that does not exist. -/
def collectFrom (graph : TypeGraph) (taken : List String) :
    List HttpOperation → List Endpoint × List Diagnostic
  | [] => ([], [])
  | http :: rest =>
    match graph.operation? http.operation with
    | none =>
      let (endpoints, problems) := collectFrom graph taken rest
      (endpoints,
        Diagnostic.make .unknownOperation http.span (some http.operation.name) [] :: problems)
    | some operation =>
      let base := (containerName graph http.operation.container).join (Words.parse operation.name)
      let name := freeName taken base
      let (endpoints, problems) := collectFrom graph (name.snakeCase :: taken) rest
      (⟨name, http, operation⟩ :: endpoints, problems)

/-- The endpoints of a service, and a problem for each operation that does not exist. -/
def collect (graph : TypeGraph) (http : HttpService) : List Endpoint × List Diagnostic :=
  collectFrom graph [] http.operations

/-- The route tree of endpoints, named by their positions. -/
def routes (endpoints : List Endpoint) : RouteNode :=
  RouteNode.ofRoutes
    (endpoints.zipIdx.map fun (endpoint, i) =>
      Route.ofTemplate i endpoint.http.verb endpoint.http.path)

/-- The problems of endpoints that another endpoint takes all requests of. -/
def routeProblems (endpoints : List Endpoint) : List Diagnostic :=
  (routes endpoints).duplicates.filterMap fun (kept, shadowed) => do
    let first ← endpoints[kept.endpoint]?
    let later ← endpoints[shadowed.endpoint]?
    let hint := "`" ++ later.http.path ++ "` is served by `" ++ first.operation.name ++ "`"
    return Diagnostic.make .duplicateRoute later.http.span (some later.signature) [hint]

end Endpoint

/-- The variable that holds the text captured for a parameter of the path. -/
def captureName (field : String) : String :=
  "param_" ++ Identifier.dropRaw field

end ServiceBindings
