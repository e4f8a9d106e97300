import ServiceBindings.CommandLine.Arguments
import ServiceBindings.Config

/-!
# Commands

The commands of the tool with their options: `generate` writes code, `check` only reports problems,
and `routes` shows the routes of a service.
-/

namespace ServiceBindings.CommandLine

/-- The name of the tool. -/
def toolName : String := "weaver"

/-- The version of the tool. -/
def toolVersion : String := "0.3.3"

/-- When problems are shown in color. -/
inductive ColorChoice where
  /-- If they are shown on a terminal. -/
  | auto
  | always
  | never
  deriving DecidableEq, Repr

/-- Whether problems are shown in color. -/
def ColorChoice.isColored (choice : ColorChoice) (onTerminal : Bool) : Bool :=
  match choice with
  | auto => onTerminal
  | always => true
  | never => false

/-- The options for reporting problems. -/
structure Reporting where
  /-- Whether a warning is enough to fail. -/
  strict : Bool
  color : ColorChoice
  deriving DecidableEq, Repr

/-- A command; each works on the schema at a path. -/
inductive Command where
  /-- Writes the code below a directory, or everything to the standard output. -/
  | generate (path : String) (config : Config) (output : Option String) (reporting : Reporting)
  | check (path : String) (config : Config) (reporting : Reporting)
  /-- Shows the routes as a tree. -/
  | routeTree (path : String)
  /-- Shows the routes as JSON. -/
  | routeJson (path : String)
  /-- Shows the endpoint that serves a request. -/
  | resolve (path request : String)

/-- What the tool is asked to do. -/
inductive Invocation where
  /-- Shows the version of the tool. -/
  | version
  | run (command : Command)

/-! ### Options -/

/-- The option for more messages; it is accepted everywhere. -/
def verboseOption : OptionSpec :=
  { name := "verbose", letter := some 'v', letterOnly := true, repeatable := true }

/-- The options of `check`. -/
def checkOptions : List OptionSpec := [
  verboseOption,
  { name := "no-http" },
  { name := "strict" },
  { name := "color", value := some (.oneOf ["auto", "always", "never"]) }]

/-- The options of `generate`. -/
def generateOptions : List OptionSpec := checkOptions ++ [
  { name := "output", letter := some 'o', value := some .nonempty },
  { name := "crate-path", value := some .any },
  { name := "single-file" },
  { name := "omit-unreachable" }]

/-- The options of `routes`. -/
def routesOptions : List OptionSpec := [
  verboseOption,
  { name := "format", value := some (.oneOf ["tree", "json"]) },
  { name := "resolve", value := some .any }]

/-! ### Reading -/

/-- The path of the schema: the only operand. -/
def Arguments.schemaPath? (arguments : Arguments) : Option String :=
  match arguments.operands with
  | [path] => if path.isEmpty then none else some path
  | _ => none

/-- The options for reporting problems. -/
def Arguments.reporting (arguments : Arguments) : Reporting where
  strict := arguments.has "strict"
  color :=
    match arguments.value? "color" with
    | some "always" => .always
    | some "never" => .never
    | _ => .auto

namespace Command

/-- The configuration for generating code. -/
def generateConfig (arguments : Arguments) : Config :=
  let base : Config := {}
  { cratePath := (arguments.value? "crate-path").getD base.cratePath
    outputMode :=
      if arguments.has "single-file" || !arguments.has "output" then .singleFile else .directory
    http := !arguments.has "no-http"
    omitUnreachable := arguments.has "omit-unreachable"
    generator := toolName ++ " " ++ toolVersion }

/-- The command that shows the routes in the chosen way; a request to resolve comes first. -/
def ofRoutesArguments (path : String) (arguments : Arguments) : Command :=
  match arguments.value? "resolve" with
  | some request => .resolve path request
  | none => if arguments.value? "format" = some "json" then .routeJson path else .routeTree path

/-- The command of a name with its arguments. -/
def ofName (name : String) (arguments : List String) : Option Command :=
  match name with
  | "generate" => do
    let given ← Arguments.read generateOptions arguments
    return .generate (← given.schemaPath?) (generateConfig given) (given.value? "output")
      given.reporting
  | "check" => do
    let given ← Arguments.read checkOptions arguments
    return .check (← given.schemaPath?) { http := !given.has "no-http" } given.reporting
  | "routes" => do
    let given ← Arguments.read routesOptions arguments
    return ofRoutesArguments (← given.schemaPath?) given
  | _ => none

end Command

namespace Invocation

/-- Whether letters before the name of a command ask for the version; other letters are refused. -/
def asksVersion : List Char → Option Bool
  | [] => some false
  | c :: cs => if c = 'v' then asksVersion cs else if c = 'V' then some true else none

/-- What the arguments of the tool ask for; nothing if they are not well formed. -/
def parse : List String → Option Invocation
  | [] => none
  | argument :: rest =>
    if argument = "--version" then some .version
    else
      match argument.toList with
      | '-' :: '-' :: _ => none
      | ['-'] => none
      | '-' :: letters => do
        if ← asksVersion letters then some .version else parse rest
      | _ => (Command.ofName argument rest).map .run

end Invocation

end ServiceBindings.CommandLine
