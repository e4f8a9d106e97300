import ServiceBindings.Code.Lines
import ServiceBindings.Http.Endpoint

/-!
# The router

The function that finds the endpoint of a request. The route tree becomes a nested conditional: an
empty rest of the path chooses by method, a literal edge strips its text, and the parameter edge
captures everything up to the next slash.
-/

namespace ServiceBindings

/-- The variant of an endpoint with the fields for its path parameters. -/
structure RouteVariant where
  name : String
  fields : List String
  deriving DecidableEq, Repr

/-- A condition on the rest of the path. -/
inductive PathTest where
  /-- Nothing is left. -/
  | isEmpty
  /-- A text comes next; it is stripped. -/
  | startsWith (text : List Char)
  deriving DecidableEq, Repr

/-- The body of the router. -/
inductive RouterExpr where
  /-- No endpoint serves the path. -/
  | notFound
  /-- The variant of the method of the request, if there is one. -/
  | dispatch (arms : List (Verb × RouteVariant))
  /-- The expression of the first test that holds, or else the last one. -/
  | branch (arms : List (PathTest × RouterExpr)) (otherwise : RouterExpr)
  /-- Binds what comes before the next slash, which must not be empty, to variables. -/
  | capture (bound : List String) (body : RouterExpr)
  deriving Repr

namespace RouterExpr

/-! ### From the route tree -/

/-- The terminals without those of a method seen before. -/
def firstOfEachVerb (seen : List Verb) : List Terminal → List Terminal
  | [] => []
  | terminal :: rest =>
    if terminal.verb ∈ seen then firstOfEachVerb seen rest
    else terminal :: firstOfEachVerb (terminal.verb :: seen) rest

/-- The choice among the endpoints whose routes end at a node. -/
def ofTerminals (variants : List RouteVariant) (terminals : List Terminal) : RouterExpr :=
  if terminals.isEmpty then .notFound
  else
    .dispatch ((firstOfEachVerb [] terminals).filterMap fun terminal =>
      (variants[terminal.endpoint]?).map fun variant => (terminal.verb, variant))

mutual

/-- The expression of a node. -/
def ofNode (variants : List RouteVariant) : RouteNode → RouterExpr
  | .mk terminals literals parameter =>
    .branch ((.isEmpty, ofTerminals variants terminals) :: ofLiterals variants literals)
      (ofParameter variants parameter)

/-- The branches of literal edges. -/
def ofLiterals (variants : List RouteVariant) :
    List (List Char × RouteNode) → List (PathTest × RouterExpr)
  | [] => []
  | (text, node) :: rest => (.startsWith text, ofNode variants node) :: ofLiterals variants rest

/-- The expression of a parameter edge. -/
def ofParameter (variants : List RouteVariant) : Option (List String × RouteNode) → RouterExpr
  | none => .notFound
  | some (names, node) =>
    .capture (names.map fun name => captureName (Identifier.valueName name)) (ofNode variants node)

end

/-! ### Text -/

/-- The answer for a path that no endpoint serves. -/
def notFoundText : String := "Err(RouteError::NotFound)"

/-- The condition of a test. -/
def testText : PathTest → String
  | .isEmpty => "if path.is_empty()"
  | .startsWith text =>
    "if let Some(path) = path.strip_prefix(" ++ String.ofList (Text.quotedChars text) ++ ")"

/-- The text of a variant whose fields take the captured texts. -/
def variantText (variant : RouteVariant) : String :=
  let fields := variant.fields.map fun field => field ++ ": " ++ captureName field
  "RouteMatch::" ++ variant.name ++
    if fields.isEmpty then "" else " " ++ Code.inBraces (Code.commaSeparated fields)

/-- The choice by method. -/
def dispatchLines (arms : List (Verb × RouteVariant)) : List String :=
  Code.block "match method"
    (arms.map (fun (verb, variant) =>
        Text.quoted verb.text ++ " => Ok(" ++ variantText variant ++ "),")
      ++ ["_ => Err(RouteError::MethodNotAllowed),"])

/-- The lines of the last alternative; without branches it stands alone. -/
def elseLines (alone : Bool) (body : List String) : List String :=
  if alone then body else "\x7d else \x7b" :: Code.indent body ++ ["\x7d"]

mutual

/-- The lines of an expression. -/
def lines : RouterExpr → List String
  | notFound => [notFoundText]
  | dispatch arms => dispatchLines arms
  | branch arms otherwise => branchLines "" arms ++ elseLines arms.isEmpty (lines otherwise)
  | capture bound body =>
    "let (captured, path) = path.split_at(path.find('/').unwrap_or(path.len()));"
      :: "if captured.is_empty() \x7b"
      :: Code.indent [notFoundText]
      ++ "\x7d else \x7b"
      :: Code.indent (bound.map (fun name => "let " ++ name ++ " = captured;")
        ++ lines body)
      ++ ["\x7d"]

/-- The lines of branches, the first one after a given text. -/
def branchLines (before : String) : List (PathTest × RouterExpr) → List String
  | [] => []
  | (test, body) :: rest =>
    (before ++ testText test ++ " \x7b") :: Code.indent (lines body)
      ++ branchLines "\x7d else " rest

end

end RouterExpr

namespace Endpoint

/-- The variant of an endpoint. -/
def routeVariant (endpoint : Endpoint) : RouteVariant :=
  ⟨endpoint.typeName, endpoint.pathFields⟩

/-- The body of the router of endpoints. -/
def router (endpoints : List Endpoint) : RouterExpr :=
  RouterExpr.ofNode (endpoints.map routeVariant) (routes endpoints)

/-- The lines of the variant of an endpoint. -/
def routeVariantLines (endpoint : Endpoint) : List String :=
  let fields := endpoint.pathFields.map (· ++ ": &'p str")
  let body := if fields.isEmpty then "" else " " ++ Code.inBraces (Code.commaSeparated fields)
  ["/// `" ++ endpoint.signature ++ "`", endpoint.typeName ++ body ++ ","]

/-- Whether the router hands out parts of the path. -/
def anyBorrows (endpoints : List Endpoint) : Bool :=
  endpoints.any fun endpoint => !endpoint.pathFields.isEmpty

/-- The type of the endpoints that the router finds. -/
def routeMatchLines (endpoints : List Endpoint) : List String :=
  let lifetime := if anyBorrows endpoints then "<'p>" else ""
  "/// Endpoint matched by [`route`], with its path parameters."
    :: Code.derives ["Debug", "Clone", "Copy", "PartialEq", "Eq"]
    :: Code.block ("pub enum RouteMatch" ++ lifetime) (endpoints.flatMap routeVariantLines)

/-- The type of the reasons why the router finds no endpoint. -/
def routeErrorLines : List String :=
  Code.derives ["Debug", "Clone", "Copy", "PartialEq", "Eq"]
    :: Code.block "pub enum RouteError" [
      "/// No endpoint serves the path.",
      "NotFound,",
      "/// The path exists, but not for the request method.",
      "MethodNotAllowed,"]

/-- The router. -/
def routerLines (endpoints : List Endpoint) : List String :=
  let head :=
    if anyBorrows endpoints then
      "pub fn route<'p>(method: &str, path: &'p str) -> Result<RouteMatch<'p>, RouteError>"
    else
      "pub fn route(method: &str, path: &str) -> Result<RouteMatch, RouteError>"
  "/// Resolve `method` and `path` (without query string) to an endpoint."
    :: "#[allow(unused_variables)]"
    :: Code.block head (router endpoints).lines

end Endpoint

end ServiceBindings
