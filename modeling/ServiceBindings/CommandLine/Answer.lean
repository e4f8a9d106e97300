import ServiceBindings.CommandLine.Command
import ServiceBindings.Compile
import ServiceBindings.Diagnostic.Snippet
import ServiceBindings.Files.Store
import ServiceBindings.Json.Writer
import ServiceBindings.Route.Listing
import ServiceBindings.Schema.Decode

/-!
# Answers of commands

What a command writes to the standard output and to the standard error, which files it writes, and
why it fails, given the text of the schema.
-/

namespace ServiceBindings.CommandLine

/-- Why a command fails. -/
inductive CommandError where
  | read (path : String) (error : FileError)
  | write (path : String) (error : FileError)
  | compile (error : CompileError)
  /-- The schema has problems that do not let the command go on. -/
  | rejected (path : String) (errors warnings : Nat)
  | noHttpService
  | invalidRequest (request : String)
  | noRoute (request : String) (miss : RouteFailure)
  deriving DecidableEq, Repr

/-- The text of an error. -/
def CommandError.message : CommandError → String
  | read path error => "failed to read `" ++ path ++ "`: " ++ error.message
  | write path error => "failed to write `" ++ path ++ "`: " ++ error.message
  | compile error => error.message
  | rejected path errors warnings =>
    "could not compile `" ++ path ++ "` (" ++ toString errors ++ " errors, " ++ toString warnings
      ++ " warnings)"
  | noHttpService => "the schema declares no HTTP service"
  | invalidRequest request =>
    "invalid request `" ++ request ++ "`, expected a method and a path such as 'GET /pets'"
  | noRoute request miss => "`" ++ request ++ "`: " ++ miss.message

/-- What a command does. -/
structure Answer where
  output : String := ""
  /-- The reported problems. -/
  problems : String := ""
  /-- The files to write, in order. -/
  files : List (String × String) := []
  error : Option CommandError := none
  deriving Repr

/-- The text for the standard error: the problems, then the error. -/
def Answer.errorOutput (answer : Answer) : String :=
  answer.problems ++
    match answer.error with
    | some error => "error: " ++ error.message ++ "\n"
    | none => ""

/-- The code that the tool exits with. -/
def Answer.exitCode (answer : Answer) : Nat :=
  if answer.error.isSome then 1 else 0

/-- An answer that fails. -/
def Answer.fail (error : CommandError) : Answer := { error := some error }

/-- The path that stands for the standard input. -/
def standardInput : String := "-"

/-- How messages name the schema. -/
def shownPath (path : String) : String :=
  if path = standardInput then "<stdin>" else path

/-! ### Reporting problems -/

/-- The answer that reports problems; it fails on errors and, if strict, on warnings. -/
def report (path text : String) (diagnostics : List Diagnostic) (reporting : Reporting)
    (onTerminal : Bool) : Answer :=
  let shown := renderDiagnostics diagnostics (some text) (some (shownPath path))
    (reporting.color.isColored onTerminal)
  let blocked := diagnostics.any Diagnostic.isError
    || (reporting.strict && diagnostics.any Diagnostic.isWarning)
  { problems := if diagnostics.isEmpty then "" else shown ++ "\n"
    error :=
      if blocked then
        some (.rejected (shownPath path) (errorCount diagnostics) (warningCount diagnostics))
      else none }

/-! ### Routes -/

/-- The name of the operation of an endpoint. -/
def operationName (http : HttpService) (endpoint : Nat) : String :=
  ((http.operations[endpoint]?).map (·.operation.name)).getD ""

/-- The endpoints of a service as JSON. -/
def routesJson (http : HttpService) : String :=
  let entries := http.operations.map fun endpoint =>
    Json.ofMembers [
      ("method", Json.ofString endpoint.verb.text),
      ("path", Json.ofString endpoint.path),
      ("operation", Json.ofString endpoint.operation.name)]
  (Json.array entries).writePretty ++ "\n"

/-- The method of a request, in letters of any case. -/
def readVerb (text : List Char) : Option Verb :=
  Verb.all.find? fun verb => verb.text.toList = text.map Char.toUpper

/-- The method and the path of a request: what comes before and after its first space. -/
def readRequest (request : String) : Option (Verb × List Char) :=
  let text := Text.trim request.toList
  match text.dropWhile (· != ' ') with
  | [] => none
  | _ :: path => (readVerb (text.takeWhile (· != ' '))).map fun verb => (verb, Text.trim path)

/-- The endpoint that serves a request, with the texts captured from its path. -/
def requestAnswer (http : HttpService) (request : String) : Except CommandError String :=
  match readRequest request with
  | none => .error (.invalidRequest request)
  | some (verb, path) =>
    match http.routes.resolve verb path with
    | .error miss => .error (.noRoute (String.ofList (Text.trim request.toList)) miss)
    | .ok found =>
      let captured := found.bindings.map fun (name, value) =>
        "  " ++ name ++ " = " ++ String.ofList value
      .ok (Text.unlines (operationName http found.endpoint :: captured))

/-- The answer of a command that shows something of the HTTP service of a schema. -/
def showService (schema : Schema) (view : HttpService → Except CommandError String) : Answer :=
  match schema.service.http with
  | none => .fail .noHttpService
  | some http =>
    match view http with
    | .ok output => { output }
    | .error error => .fail error

/-! ### Commands -/

namespace Command

/-- The path of the schema that a command works on. -/
def schemaPath : Command → String
  | generate path .. => path
  | check path .. => path
  | routeTree path => path
  | routeJson path => path
  | resolve path _ => path

/-- The answer of a command that compiles: `finish` adds to the answer that reports no error. -/
def compiling (path text : String) (schema : Schema) (config : Config) (reporting : Reporting)
    (onTerminal : Bool) (finish : List OutputFile → Answer → Answer) : Answer :=
  match compile schema config with
  | .error error => .fail (.compile error)
  | .ok compilation =>
    let answer := report path text compilation.diagnostics reporting onTerminal
    if answer.error.isSome then answer else finish compilation.files answer

/-- Adds the generated files to an answer. -/
def deliver (output : Option String) (files : List OutputFile) (answer : Answer) : Answer :=
  match output with
  | some directory =>
    { answer with
      files := files.map fun file => (PathText.join directory file.path, file.text) }
  | none => { answer with output := String.join (files.map (·.text)) }

/-- The answer of a command for a schema. -/
def answerFor (command : Command) (onTerminal : Bool) (text : String) (schema : Schema) : Answer :=
  match command with
  | generate path config output reporting =>
    compiling path text schema config reporting onTerminal (deliver output)
  | check path config reporting =>
    compiling path text schema config reporting onTerminal fun _ answer => answer
  | routeTree _ =>
    showService schema fun http => .ok (http.routes.list (operationName http))
  | routeJson _ => showService schema fun http => .ok (routesJson http)
  | resolve _ request => showService schema fun http => requestAnswer http request

/-- The answer of a command for the text of a schema. -/
def answer (command : Command) (onTerminal : Bool) (text : String) : Answer :=
  match Schema.ofText text with
  | .error error => .fail (.compile error)
  | .ok schema => command.answerFor onTerminal text schema

end Command

/-- The answer that shows the version. -/
def versionAnswer : Answer := { output := toolName ++ " " ++ toolVersion ++ "\n" }

/-! ### Working on a store of files -/

/-- Writes the files of an answer, up to the first one that cannot be written. -/
def writeFiles (store : FileStore) : List (String × String) → FileStore × Option CommandError
  | [] => (store, none)
  | (path, text) :: rest =>
    match store.write path text with
    | .error error => (store, some (.write path error))
    | .ok store => writeFiles store rest

/-- The answer of a command in a store, with the store after its files were written. -/
def Command.runIn (command : Command) (store : FileStore) (input : String) : Answer × FileStore :=
  let path := command.schemaPath
  match if path = standardInput then .ok input else (store.withInput input).read path with
  | .error error => (.fail (.read path error), store)
  | .ok text =>
    let answer := command.answer false text
    match writeFiles store answer.files with
    | (store, none) => (answer, store)
    | (store, some error) => ({ answer with error := some error }, store)

/-- The answer to what the tool is asked to do in a store. -/
def Invocation.runIn (invocation : Invocation) (store : FileStore) (input : String) :
    Answer × FileStore :=
  match invocation with
  | version => (versionAnswer, store)
  | run command => command.runIn store input

end ServiceBindings.CommandLine
