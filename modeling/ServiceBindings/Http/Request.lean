import ServiceBindings.Http.Outcome
import ServiceBindings.Text.Occurrence

/-!
# Client calls

The functions by which a client builds the request of an endpoint and reads the response. The path
is written into its template, and every other parameter is added by a statement of its own.
-/

namespace ServiceBindings

/-! ### The path of a request -/

/-- A piece of the path of a request. -/
inductive PathPiece where
  | text (content : List Char)
  /-- The text of a field of the parameters. -/
  | argument (field : String)
  deriving DecidableEq, Repr

namespace PathPiece

/-- The piece for a parameter of the template. A literal stands for itself, a null for nothing, and
a parameter that the endpoint does not declare stays as it is. -/
def ofParameter (graph : TypeGraph) (parameters : List HttpParameter) (name : List Char) :
    PathPiece :=
  let declared := parameters.find? fun parameter =>
    parameter.name = String.ofList name && parameter.location = .path
  match declared with
  | none => .text ('\x7b' :: name ++ ['\x7d'])
  | some parameter =>
    match graph.kind? parameter.type with
    | some (.literal value) => .text value.wireText.toList
    | some (.intrinsic .null) => .text []
    | _ => .argument (Identifier.valueName parameter.name)

/-- The piece for a segment of the template. -/
def ofSegment (graph : TypeGraph) (parameters : List HttpParameter) : Segment → PathPiece
  | .literal content => .text content
  | .parameter name => ofParameter graph parameters name

/-- The field that a piece takes its text from. -/
def field? : PathPiece → Option String
  | text _ => none
  | argument field => some field

/-- The text of a piece in a path without arguments. -/
def plain : PathPiece → List Char
  | text content => content
  | argument _ => ['\x7b', '\x7d']

/-- A character of a format string; a brace is doubled. -/
def escapeBrace (c : Char) : List Char :=
  if c = '\x7b' || c = '\x7d' then [c, c] else [c]

/-- The text of a piece in a format string. -/
def format : PathPiece → List Char
  | text content => content.flatMap escapeBrace
  | argument _ => ['\x7b', '\x7d']

end PathPiece

/-! ### Statements of a request -/

/-- What a statement sends. -/
inductive SentValue where
  /-- A literal of the generated code. -/
  | literal (code : String)
  /-- A field of the parameters, only if it is present. -/
  | field (ident : String) (optional : Bool)
  deriving DecidableEq, Repr

/-- A statement that adds a parameter to a request. -/
structure SendStatement where
  location : ParameterLocation
  name : String
  value : SentValue
  deriving DecidableEq, Repr

namespace SendStatement

/-- The statement for a parameter; those of the path are part of it already, and a null is not
sent. -/
def ofParameter (graph : TypeGraph) (parameter : HttpParameter) : Option SendStatement :=
  if parameter.location = .path then none
  else
    match graph.kind? parameter.type with
    | some (.literal value) =>
      some ⟨parameter.location, parameter.name, .literal value.toCode⟩
    | some (.intrinsic .null) => none
    | _ =>
      some ⟨parameter.location, parameter.name,
        .field (Identifier.valueName parameter.name) parameter.optional⟩

/-- The call that adds an expression to the request. -/
def call (statement : SendStatement) (expression : String) : String :=
  let named (method : String) : String :=
    "request." ++ method ++ "(" ++ Text.quoted statement.name ++ ", " ++ expression ++ ")?;"
  match statement.location with
  | .header => named "header"
  | .body => "request.json_body(" ++ expression ++ ")?;"
  | _ => named "query"

/-- The lines of a statement. -/
def lines (statement : SendStatement) : List String :=
  match statement.value with
  | .literal code => [statement.call ("&" ++ code)]
  | .field ident false => [statement.call ("&parameters." ++ ident)]
  | .field ident true =>
    Code.block ("if let Some(value) = &parameters." ++ ident) [statement.call "value"]

end SendStatement

/-! ### Reading a response -/

/-- How the value of an outcome is read. -/
inductive BodyReading where
  /-- The value is the unit; the body does not matter. -/
  | unit
  /-- The value is read from the body. -/
  | json
  deriving DecidableEq, Repr

/-- How a value of a type is read; a type without values is not. -/
def BodyReading.ofType (type : String) : Option BodyReading :=
  if type = Code.emptyType || type = "!" then none
  else if type = "()" then some .unit
  else some .json

/-- The arm that reads the value of an outcome. -/
def decodeArm (client : String) (outcome : Outcome) (constructor : String) :
    BodyReading → String
  | .unit => "Some(super::Outcome::" ++ outcome.variant ++ ") => Ok(" ++ constructor ++ "(())),"
  | .json =>
    "Some(super::Outcome::" ++ outcome.variant ++ ") => " ++ client ++ "::json(body).map("
      ++ constructor ++ "),"

/-- The function that reads a response, given the types of the two outcomes. -/
def decodeLines (client response error : String) : List String :=
  let success := BodyReading.ofType response
  let failure := BodyReading.ofType error
  let arms := success.toList.map (decodeArm client .success "Ok")
    ++ failure.toList.map (decodeArm client .error "Err")
    ++ ["_ => Err(" ++ client ++ "::DecodeError::UnexpectedStatus(status)),"]
  "/// Decode a response to this endpoint according to [`classify`]."
    :: (if success = some .json || failure = some .json then [] else ["#[allow(unused_variables)]"])
    ++ Code.block
      ("pub fn decode(status: u16, body: &[u8]) -> Result<Result<Response, Error>, " ++ client
        ++ "::DecodeError>")
      (Code.block "match classify(status)" arms)

namespace Endpoint

/-- The pieces of the path of a request. -/
def pathPieces (graph : TypeGraph) (endpoint : Endpoint) : List PathPiece :=
  (Template.parse endpoint.http.path).map (PathPiece.ofSegment graph endpoint.http.parameters)

/-- The statements that add the other parameters to a request. -/
def sendStatements (graph : TypeGraph) (endpoint : Endpoint) : List SendStatement :=
  endpoint.http.parameters.filterMap (SendStatement.ofParameter graph)

/-- The expression of the path of a request. -/
def pathExpression (client : String) (pieces : List PathPiece) : String :=
  let arguments := (pieces.filterMap PathPiece.field?).map fun field =>
    client ++ "::path_segment(&parameters." ++ field ++ ")?"
  if arguments.isEmpty then
    "String::from(" ++ String.ofList (Text.quotedChars (pieces.flatMap PathPiece.plain)) ++ ")"
  else
    "format!(" ++ String.ofList (Text.quotedChars (pieces.flatMap PathPiece.format)) ++ ", "
      ++ Code.commaSeparated arguments ++ ")"

/-- The function that builds a request. -/
def requestLines (graph : TypeGraph) (client : String) (endpoint : Endpoint) : List String :=
  let pieces := endpoint.pathPieces graph
  let statements := (endpoint.sendStatements graph).flatMap SendStatement.lines
  let usesParameters := pieces.any (·.field?.isSome)
    || statements.any fun line => Text.occursIn "parameters.".toList line.toList
  "/// Request for this endpoint, built from its parameters."
    :: (if usesParameters then [] else ["#[allow(unused_variables)]"])
    ++ Code.block
      ("pub fn request(parameters: &Parameters) -> Result<" ++ client ++ "::Request, " ++ client
        ++ "::EncodeError>")
      (["let path = " ++ pathExpression client pieces ++ ";",
        (if statements.isEmpty then "let" else "let mut") ++ " request = " ++ client
          ++ "::Request::new(" ++ Text.quoted endpoint.http.verb.text ++ ", path);"]
        ++ statements ++ ["Ok(request)"])

/-- The functions of the client of an endpoint, given the types of the two outcomes. -/
def clientLines (graph : TypeGraph) (config : Config) (response error : String)
    (endpoint : Endpoint) : List String :=
  let client := config.host "client"
  endpoint.requestLines graph client ++ "" :: decodeLines client response error

end Endpoint

end ServiceBindings
