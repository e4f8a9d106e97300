import ServiceBindings.Schema.Types

/-!
# Diagnostics

Problems of a schema that leave room to go on. A diagnostic has a kind, which fixes its severity,
its code and its usual hint, a message, and a place in the source of the schema where that is known.
-/

namespace ServiceBindings

/-- How bad a problem is. -/
inductive Severity where
  | error
  | warning
  deriving DecidableEq, Repr

/-- The word for a severity. -/
def Severity.text : Severity → String
  | error => "error"
  | warning => "warning"

/-- A kind of problem. -/
inductive DiagnosticKind where
  | unrecognizedScalar
  | unrecognizedEncoding
  | unsupportedAuthentication
  | multipleResponseShapes
  | unknownOperation
  | unboundParameter
  | duplicateRoute
  deriving DecidableEq, Repr

namespace DiagnosticKind

/-- The kinds in the order of their declaration. -/
def all : List DiagnosticKind := [
  unrecognizedScalar, unrecognizedEncoding, unsupportedAuthentication, multipleResponseShapes,
  unknownOperation, unboundParameter, duplicateRoute]

/-- How bad a problem of this kind is. -/
def severity : DiagnosticKind → Severity
  | duplicateRoute => .warning
  | _ => .error

/-- The name of the kind for tools. -/
def code : DiagnosticKind → String
  | unrecognizedScalar => "unrecognized-scalar"
  | unrecognizedEncoding => "unrecognized-encoding"
  | unsupportedAuthentication => "unsupported-authentication"
  | multipleResponseShapes => "multiple-response-shapes"
  | unknownOperation => "unknown-operation"
  | unboundParameter => "unbound-parameter"
  | duplicateRoute => "duplicate-route"

/-- The kind of a name for tools. -/
def ofCode? (code : String) : Option DiagnosticKind :=
  all.find? fun kind => kind.code = code

/-- The hint that every problem of the kind comes with. -/
def hint? : DiagnosticKind → Option String
  | unrecognizedScalar => some "extend a standard scalar, e.g. `scalar petId extends string`"
  | multipleResponseShapes => some "declare exactly one success body and at most one error body"
  | duplicateRoute => some "the operation declared first wins"
  | unboundParameter =>
    some "declare it as a path, query, header or body parameter of the endpoint"
  | _ => none

/-- The message without details. -/
def plainMessage : DiagnosticKind → String
  | unrecognizedScalar => "unrecognized scalar type"
  | unrecognizedEncoding => "unrecognized encoding"
  | unsupportedAuthentication => "unsupported authentication scheme"
  | multipleResponseShapes => "operation has more than one response shape"
  | unknownOperation => "endpoint refers to an unknown operation"
  | unboundParameter => "operation parameter is not bound to the request"
  | duplicateRoute => "duplicate route"

/-- The message about a detail. -/
def detailedMessage (kind : DiagnosticKind) (detail : String) : String :=
  match kind with
  | unrecognizedScalar => "unrecognized scalar type `" ++ detail ++ "`"
  | unknownOperation => "endpoint refers to unknown operation `" ++ detail ++ "`"
  | unboundParameter => "parameter `" ++ detail ++ "` is not bound to the request"
  | duplicateRoute => "route `" ++ detail ++ "` is declared more than once"
  | kind => kind.plainMessage ++ ": " ++ detail

end DiagnosticKind

/-- A problem found in a schema. -/
structure Diagnostic where
  kind : DiagnosticKind
  span : Option Span
  message : String
  hints : List String
  deriving DecidableEq, Repr

namespace Diagnostic

/-- A problem with its usual hint and further ones. -/
def make (kind : DiagnosticKind) (span : Option Span) (detail : Option String)
    (hints : List String) : Diagnostic where
  kind := kind
  span := span
  message :=
    match detail with
    | some detail => kind.detailedMessage detail
    | none => kind.plainMessage
  hints := kind.hint?.toList ++ hints

/-- How bad the problem is. -/
def severity (diagnostic : Diagnostic) : Severity :=
  diagnostic.kind.severity

/-- Whether the problem is an error. -/
def isError (diagnostic : Diagnostic) : Bool :=
  diagnostic.severity = .error

/-- Whether the problem is a warning. -/
def isWarning (diagnostic : Diagnostic) : Bool :=
  diagnostic.severity = .warning

/-- The problem on one line. -/
def display (diagnostic : Diagnostic) : String :=
  let place :=
    match diagnostic.span with
    | some span => " at " ++ toString span.start ++ ".." ++ toString span.stop
    | none => ""
  let hints := diagnostic.hints.map fun hint => " (hint: " ++ hint ++ ")"
  diagnostic.severity.text ++ "[" ++ diagnostic.kind.code ++ "]" ++ place ++ ": "
    ++ diagnostic.message ++ String.join hints

end Diagnostic

/-- The number of errors. -/
def errorCount (diagnostics : List Diagnostic) : Nat :=
  diagnostics.countP Diagnostic.isError

/-- The number of warnings. -/
def warningCount (diagnostics : List Diagnostic) : Nat :=
  diagnostics.countP Diagnostic.isWarning

end ServiceBindings
