import ServiceBindings.Draft.Declaration
import ServiceBindings.Http.Credential
import ServiceBindings.Http.Request
import ServiceBindings.Http.Serve

/-!
# The HTTP surface

The module `http` of the generated code: credentials, the router, a module of each endpoint with its
types and client functions, and the server.
-/

namespace ServiceBindings

/-- The declaration of a container of operations. -/
def Container.declaration : Container → DeclarationRef
  | .group id => .operations id
  | .interface id => .type id

/-- A text that starts with an upper-case letter. -/
def capitalized (text : String) : String :=
  String.ofList (Words.capitalize text.toList)

namespace Job

/-! ### Endpoints -/

/-- The lines of a field of the parameters of an endpoint. -/
def parameterLines (job : Job) (endpoint : Endpoint) (path : ModulePath)
    (parameter : HttpParameter) : Drafting (List String) := do
  let preferred := endpoint.name.pascalCase ++ pascalCase parameter.name
  let type ← job.spell parameter.type none .owned path preferred
  let declared := if parameter.optional then Code.optionOf type else type
  return [
    "/// " ++ capitalized parameter.location.text ++ " parameter `" ++ parameter.name ++ "`",
    "pub " ++ Identifier.valueName parameter.name ++ ": " ++ declared ++ ","]

/-- The documentation of the module of an endpoint. -/
def endpointDoc (endpoint : Endpoint) : String :=
  "`" ++ endpoint.signature ++ "`" ++
    match endpoint.operation.doc with
    | some doc => "\n\n" ++ doc
    | none => ""

/-- Writes the module of an endpoint. -/
def writeEndpoint (job : Job) (parent : ModuleId) (endpoint : Endpoint) : Drafting Unit := do
  let m ← Drafting.addModule parent endpoint.moduleName true (endpointDoc endpoint)
  let path ← Drafting.pathOf m
  let split ← job.splitReturn endpoint.http.operation.container endpoint.operation
  let response ← job.spellSide split.success path
  let error ← job.spellSide split.error path
  Drafting.write m (Code.aliasLines none "Response" response ++ Code.aliasLines none "Error" error)
  let parameters ← (endpoint.parameters job.graph).mapM (job.parameterLines endpoint path)
  Drafting.write m
    (Code.derives ["Debug", "Clone"]
      :: Code.blockOrBraces "pub struct Parameters" parameters.flatten)
  Drafting.write m (classifyLines (statusArms (endpoint.statuses job.graph)))
  Drafting.write m (endpoint.clientLines job.graph job.config response error)
  match endpoint.shapeProblem? job.graph with
  | some problem => Drafting.report problem
  | none => pure ()

/-- Writes the modules of all endpoints. -/
def writeEndpoints (job : Job) (parent : ModuleId) (endpoints : List Endpoint) :
    Drafting Unit := do
  let m ← Drafting.addModule parent "operations" false
    "Response types, status classification and client calls for each endpoint."
  Drafting.write m outcomeLines
  endpoints.forM (job.writeEndpoint m)

/-! ### Credentials and router -/

/-- Writes the credential of a service, or reports the problem with its schemes. -/
def writeCredential (parent : ModuleId) (schemes : List AuthScheme) : Drafting Unit := do
  match Credential.ofSchemes schemes with
  | none => pure ()
  | some (.error problem) => Drafting.report problem
  | some (.ok credential) =>
    let m ← Drafting.addModule parent "auth" true "Credentials accepted by the service."
    Drafting.write m credential.lines

/-- Writes the router. -/
def writeRouter (parent : ModuleId) (endpoints : List Endpoint) : Drafting Unit := do
  let m ← Drafting.addModule parent "router" false
    "Maps a request method and path to the endpoint serving it."
  (Endpoint.routeProblems endpoints).forM Drafting.report
  Drafting.write m (Endpoint.routeMatchLines endpoints)
  Drafting.write m Endpoint.routeErrorLines
  Drafting.write m (Endpoint.routerLines endpoints)

/-! ### The server -/

/-- The containers that a server at `path` delegates to, when some type parameters are taken. -/
def backends (job : Job) (path : ModulePath) : NameScope → List Container → Drafting (List Backend)
  | _, [] => return []
  | scope, container :: rest => do
    let trait ← job.traitName container
    let module ← Drafting.pathOf (← job.placeOfContainer container)
    let (typeParameter, scope) := scope.assign (Identifier.dropRaw trait)
    let backend : Backend := {
      container := container
      typeParameter := typeParameter
      field := Identifier.valueName typeParameter
      bound := path.itemReference module trait
      traitName := trait
      module := module }
    return backend :: (← backends job path scope rest)

/-- The argument for a parameter of an operation that a parameter of the endpoint is bound to. -/
def callArgument (job : Job) (host : String) (backend : Backend) (operation : String)
    (parameter : Field) (bound : HttpParameter) : Drafting CallArgument := do
  let ident := Identifier.valueName parameter.name
  let value := "parameters." ++ ident
  if parameter.optional then
    return .optional ident (if bound.optional then value else "Some(" ++ value ++ ")")
  let given :=
    if bound.optional then
      host ++ "::required(" ++ value ++ ", " ++ Text.quoted parameter.name ++ ")?"
    else value
  let preferred := parameterTypeName operation parameter.name
  let spelling ← job.spell parameter.type parameter.span .param backend.module preferred
  return .required (if spelling.toList.head? = some '&' then "&" ++ given else given)

/-- The arguments for the parameters of an operation. The first parameter that no parameter of the
endpoint is bound to is reported and given back instead. -/
def callArguments (job : Job) (host : String) (backend : Backend) (endpoint : Endpoint) :
    List Field → Drafting (Except String (List CallArgument))
  | [] => return .ok []
  | parameter :: rest => do
    match (endpoint.parameters job.graph).find? fun bound => bound.name = parameter.name with
    | none =>
      let hint := "`" ++ endpoint.operation.name ++ "` serves `" ++ endpoint.signature ++ "`"
      Drafting.report
        (Diagnostic.make .unboundParameter endpoint.http.span (some parameter.name) [hint])
      return .error parameter.name
    | some bound =>
      let argument ← job.callArgument host backend endpoint.operation.name parameter bound
      let arguments ← callArguments job host backend endpoint rest
      return arguments.map (argument :: ·)

/-- What the server sends when an operation succeeds. -/
def successAnswer (job : Job) (endpoint : Endpoint) (success : ReturnSide) : SuccessAnswer :=
  match success with
  | .nothing => .never
  | .type id _ => endpoint.successAnswer job.graph (job.graph.kind? id = some (.intrinsic .void))
  | .union _ => endpoint.successAnswer job.graph false

/-- What an endpoint does with its parameters; the server stands at `path`. -/
def serveAction (job : Job) (host : String) (path : ModulePath) (backend : Backend)
    (endpoint : Endpoint) : Drafting ServeAction := do
  let operation := endpoint.operation
  match ← job.callArguments host backend endpoint (job.informative operation) with
  | .error parameter => return .unbound parameter
  | .ok arguments =>
    let options := Code.optionsTypeName backend.traitName operation.name
    let call := ServeCall.ofArguments operation.name (path.itemReference backend.module options)
      arguments
    let split ← job.splitReturn endpoint.http.operation.container operation
    return .call call (job.successAnswer endpoint split.success)

/-- The method of the server at `path` for an endpoint. -/
def serveMethod (job : Job) (host : String) (path endpoints : ModulePath)
    (served : Endpoint × Backend) : Drafting ServeMethod := do
  let (endpoint, backend) := served
  let action ← job.serveAction host path backend endpoint
  return {
    endpoint := endpoint
    backend := backend.field
    parametersPath := path.itemReference (endpoints.enter [endpoint.moduleName]) "Parameters"
    fields := endpoint.extractedFields job.graph host
    action := action }

/-- Writes the server, if there is anything to serve. -/
def writeServer (job : Job) (parent : ModuleId) (endpoints : List Endpoint) : Drafting Unit := do
  if endpoints.isEmpty then return
  let m ← Drafting.addModule parent "server" false
    "Request dispatch onto the service's operation traits."
  let path ← Drafting.pathOf m
  let operations := (← Drafting.pathOf parent).enter ["operations"]
  let host := job.config.host "server"
  let containers := (endpoints.map (·.http.operation.container)).eraseDups
  -- `R` is the type parameter for requests.
  let backends ← job.backends path ⟨["R"]⟩ containers
  let served := endpoints.filterMap fun endpoint =>
    (backends.find? fun backend => backend.container = endpoint.http.operation.container).map
      fun backend => (endpoint, backend)
  let methods ← served.mapM (job.serveMethod host path operations)
  let name := Identifier.typeName (job.graph.namespaceName job.service.root) ++ "Server"
  Drafting.write m (serverLines host name backends methods)

/-- Writes the HTTP surface of a service. -/
def writeSurface (job : Job) (http : HttpService) : Drafting Unit := do
  let m ← Drafting.addModule .root "http" false "HTTP routing, endpoint metadata and credentials."
  let (endpoints, problems) := Endpoint.collect job.graph http
  problems.forM Drafting.report
  endpoints.forM fun endpoint =>
    Drafting.request endpoint.http.operation.container.declaration
  writeCredential m http.auth
  writeRouter m endpoints
  job.writeEndpoints m endpoints
  job.writeServer m endpoints

end Job

end ServiceBindings
