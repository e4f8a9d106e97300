import ServiceBindings.Code.Trait
import ServiceBindings.Http.Outcome
import ServiceBindings.Http.Router
import ServiceBindings.Module.Path

/-!
# The server

A struct that serves every endpoint. It holds an implementation of each container of operations that
has endpoints; a request is routed, its parameters are extracted, the method of the operation is
called, and the result becomes a response.
-/

namespace ServiceBindings

/-- A container that the server delegates to. -/
structure Backend where
  container : Container
  /-- The type parameter of the server. -/
  typeParameter : String
  field : String
  /-- The trait, as the server refers to it. -/
  bound : String
  traitName : String
  /-- The module that declares the trait. -/
  module : ModulePath
  deriving DecidableEq, Repr

/-! ### Extracting parameters -/

/-- The expression that reads a parameter from the request, given the fields captured from the
path. -/
def HttpParameter.extraction (host : String) (captured : List String) (parameter : HttpParameter) :
    String :=
  let name := Text.quoted parameter.name
  let required (value : String) : String := host ++ "::required(" ++ value ++ ", " ++ name ++ ")?"
  let given (value : String) : String := if parameter.optional then value else required value
  match parameter.location with
  | .path =>
    let ident := Identifier.valueName parameter.name
    if ident ∈ captured then
      let value := host ++ "::path_param(" ++ captureName ident ++ ", " ++ name ++ ")?"
      if parameter.optional then "Some(" ++ value ++ ")" else value
    else if parameter.optional then "None"
    else required "None"
  | .query => given (host ++ "::query_param(request, " ++ name ++ ")?")
  | .header => given (host ++ "::header_param(request, " ++ name ++ ")?")
  | .body => given (host ++ "::body(request)?")

/-! ### Calling a method -/

/-- An argument of the call of a method. -/
inductive CallArgument where
  | required (value : String)
  /-- A field of the struct of optional parameters. -/
  | optional (field value : String)
  deriving DecidableEq, Repr

namespace CallArgument

/-- The value of a required argument. -/
def required? : CallArgument → Option String
  | required value => some value
  | optional _ _ => none

/-- The field of an optional argument with its value. -/
def optional? : CallArgument → Option (String × String)
  | required _ => none
  | optional field value => some (field, value)

end CallArgument

/-- The call of a method, with the struct of optional parameters if the operation has any. -/
structure ServeCall where
  method : String
  arguments : List String
  options : Option (String × List (String × String))
  deriving DecidableEq, Repr

/-- The call of an operation; `optionsPath` leads to its struct of optional parameters. -/
def ServeCall.ofArguments (operation optionsPath : String) (arguments : List CallArgument) :
    ServeCall :=
  let required := arguments.filterMap CallArgument.required?
  let optional := arguments.filterMap CallArgument.optional?
  if optional.isEmpty then ⟨Code.methodName operation, required, none⟩
  else ⟨Code.optionsMethodName operation, required, some (optionsPath, optional)⟩

/-- The text of a call. -/
def ServeCall.text (call : ServeCall) : String :=
  let options := call.options.toList.map fun (path, fields) =>
    path ++ " " ++ Code.inBraces
      (Code.commaSeparated (fields.map fun (field, value) => field ++ ": " ++ value))
  call.method ++ "(" ++ Code.commaSeparated (call.arguments ++ options) ++ ")"

/-! ### Answering -/

/-- What the server sends when a method succeeds. -/
inductive SuccessAnswer where
  /-- Nothing: the method cannot succeed. -/
  | never
  | empty (status : Nat)
  | json (status : Nat)
  deriving DecidableEq, Repr

/-- The arm of the result of a method that succeeded. -/
def SuccessAnswer.line (host : String) : SuccessAnswer → String
  | never => "Ok(value) => match value \x7b\x7d,"
  | empty status => "Ok(_) => " ++ host ++ "::Response::empty(" ++ toString status ++ "),"
  | json status =>
    "Ok(value) => " ++ host ++ "::Response::json(" ++ toString status ++ ", &value),"

/-- What an endpoint does with the extracted parameters. -/
inductive ServeAction where
  /-- It fails because a parameter of the operation is bound to nothing. -/
  | unbound (parameter : String)
  | call (served : ServeCall) (answer : SuccessAnswer)
  deriving DecidableEq, Repr

/-- The method of the server for an endpoint. -/
structure ServeMethod where
  endpoint : Endpoint
  /-- The field of the server that implements the container. -/
  backend : String
  /-- The struct of the parameters, as the server refers to it. -/
  parametersPath : String
  /-- The fields of the parameters with the expressions that extract them. -/
  fields : List (String × String)
  action : ServeAction
  deriving DecidableEq, Repr

namespace Endpoint

/-- The name of the method of the server for an endpoint. -/
def serveName (endpoint : Endpoint) : String :=
  "serve_" ++ Identifier.dropRaw endpoint.moduleName

/-- The fields of the parameters of an endpoint with the expressions that extract them. -/
def extractedFields (graph : TypeGraph) (host : String) (endpoint : Endpoint) :
    List (String × String) :=
  (endpoint.parameters graph).map fun parameter =>
    (Identifier.valueName parameter.name, parameter.extraction host endpoint.pathFields)

/-- The first response of an endpoint that is no error. -/
def successResponse? (graph : TypeGraph) (endpoint : Endpoint) : Option HttpResponse :=
  endpoint.http.responses.find? fun response => response.outcome graph = .success

/-- The status of a success: that of the first success response, where it is declared. -/
def successStatus (graph : TypeGraph) (endpoint : Endpoint) (isVoid : Bool) : Nat :=
  match (endpoint.successResponse? graph).map HttpResponse.status with
  | some (.exact code) => code
  | some (.range start _) => start
  | _ => if isVoid then 204 else 200

/-- The answer of an endpoint whose method can succeed. -/
def successAnswer (graph : TypeGraph) (endpoint : Endpoint) (isVoid : Bool) : SuccessAnswer :=
  let status := endpoint.successStatus graph isVoid
  if isVoid || (endpoint.successResponse? graph).any (·.body.isNone) then .empty status
  else .json status

end Endpoint

/-! ### Text -/

/-- The bound of the type of requests. -/
def requestBound (host : String) : List String := ["R: " ++ host ++ "::Request,"]

/-- The lines of what an endpoint does with the extracted parameters. -/
def ServeAction.lines (host backend : String) : ServeAction → List String
  | unbound parameter =>
    ["Err(" ++ host ++ "::ExtractError::missing(" ++ Text.quoted parameter ++ "))"]
  | call served answer =>
    ("let result = self." ++ backend ++ "." ++ served.text ++ ".await;")
      :: "Ok(match result \x7b"
      :: Code.indent [answer.line host,
        "Err(error) => " ++ host ++ "::Response::operation_error(&error),"]
      ++ ["\x7d)"]

/-- The statement that builds the parameters. -/
def parametersStatement (path : String) (fields : List (String × String)) : List String :=
  let head := "let parameters = " ++ path
  if fields.isEmpty then [head ++ " \x7b\x7d;"]
  else
    (head ++ " \x7b")
      :: Code.indent (fields.map fun (field, value) => field ++ ": " ++ value ++ ",")
      ++ ["\x7d;"]

/-- The lines of the method of the server for an endpoint. -/
def ServeMethod.lines (host : String) (method : ServeMethod) : List String :=
  let captures := method.endpoint.pathFields.map fun field => ", " ++ captureName field ++ ": &str"
  let head := "async fn " ++ method.endpoint.serveName ++ "<R>(&mut self, request: &R"
    ++ String.join captures ++ ") -> ::core::result::Result<" ++ host ++ "::Response, " ++ host
    ++ "::ExtractError>"
  ("/// `" ++ method.endpoint.signature ++ "`")
    :: "#[allow(unused_variables)]"
    :: Code.boundedBlock head (requestBound host)
      (parametersStatement method.parametersPath method.fields
        ++ method.action.lines host method.backend)

/-- The arm of the dispatch for an endpoint. -/
def Endpoint.dispatchArm (endpoint : Endpoint) : List String :=
  let fields := endpoint.pathFields
  let bound := fields.map fun field => field ++ ": " ++ captureName field
  let pattern := if fields.isEmpty then "" else " " ++ Code.inBraces (Code.commaSeparated bound)
  Code.block ("super::router::RouteMatch::" ++ endpoint.typeName ++ pattern ++ " =>")
    ["self." ++ endpoint.serveName ++ "(request"
      ++ String.join (fields.map fun field => ", " ++ captureName field) ++ ").await"]

/-- The method of the server that routes a request. -/
def dispatchMethodLines (host : String) (endpoints : List Endpoint) : List String :=
  let missing := "super::router::RouteError::"
  "/// Route `request` to its endpoint and serve it."
    :: Code.boundedBlock
      ("pub async fn dispatch<R>(&mut self, request: &R) -> " ++ host ++ "::Response")
      (requestBound host)
      ("let route = match super::router::route(request.method(), request.path()) \x7b"
        :: Code.indent
          ("Ok(route) => route,"
            :: ("Err(" ++ missing ++ "NotFound) => return " ++ host ++ "::Response::not_found(),")
            :: Code.block ("Err(" ++ missing ++ "MethodNotAllowed) =>")
              ["return " ++ host ++ "::Response::method_not_allowed();"])
        ++ "\x7d;"
        :: "let served = match route \x7b"
        :: Code.indent (endpoints.flatMap Endpoint.dispatchArm)
        ++ ["\x7d;", "served.unwrap_or_else(" ++ host ++ "::Response::bad_request)"])

/-- The struct of the server with its methods. -/
def serverLines (host name : String) (backends : List Backend) (methods : List ServeMethod) :
    List String :=
  let parameters := "<" ++ Code.commaSeparated (backends.map (·.typeParameter)) ++ ">"
  let typed := backends.map fun backend => backend.field ++ ": " ++ backend.typeParameter
  let constructor := Code.block
    ("pub fn new(" ++ Code.commaSeparated typed ++ ") -> Self")
    ["Self " ++ Code.inBraces (Code.commaSeparated (backends.map (·.field)))]
  "/// Serves every endpoint by calling the operation traits."
    :: Code.derives ["Debug", "Clone"]
    :: Code.block ("pub struct " ++ name ++ parameters)
      (typed.map fun field => "pub " ++ field ++ ",")
    ++ "" :: Code.boundedBlock ("impl" ++ parameters ++ " " ++ name ++ parameters)
      (backends.map fun backend => backend.typeParameter ++ ": " ++ backend.bound ++ ",")
      (Code.separated
        (constructor :: dispatchMethodLines host (methods.map (·.endpoint))
          :: methods.map (ServeMethod.lines host)))

end ServiceBindings
