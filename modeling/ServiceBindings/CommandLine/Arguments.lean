/-!
# Arguments of a command

The arguments of a command are options and operands in any order. An option is given as `--name` or,
if it has one, by its letter; letters may be written together. Its value follows as the next
argument, or in the same one: `--name=value`, `-xvalue`, `-x=value`. After `--` every argument is an
operand, and so is a lone `-`.
-/

namespace ServiceBindings.CommandLine

/-- The values that an option accepts. -/
inductive ValueRule where
  | any
  | nonempty
  | oneOf (values : List String)
  deriving DecidableEq, Repr

/-- Whether a value is accepted. -/
def ValueRule.accepts : ValueRule → String → Bool
  | any, _ => true
  | nonempty, value => !value.isEmpty
  | oneOf values, value => values.contains value

/-- An option of a command. -/
structure OptionSpec where
  name : String
  letter : Option Char := none
  /-- Whether it can only be given by its letter. -/
  letterOnly : Bool := false
  /-- The values it takes; a flag takes none. -/
  value : Option ValueRule := none
  /-- Whether it may be given more than once. -/
  repeatable : Bool := false
  deriving DecidableEq, Repr

/-- The options and operands that were given. -/
structure Arguments where
  options : List (String × String) := []
  operands : List String := []
  deriving DecidableEq, Repr

namespace Arguments

/-- Whether an option was given. -/
def has (arguments : Arguments) (name : String) : Bool :=
  arguments.options.any fun option => option.1 = name

/-- The value that was given for an option. -/
def value? (arguments : Arguments) (name : String) : Option String :=
  arguments.options.lookup name

/-- The arguments with an option, which must not have been given before unless it is repeatable. -/
def addOption (arguments : Arguments) (spec : OptionSpec) (value : String) : Option Arguments :=
  if arguments.has spec.name && !spec.repeatable then none
  else some { arguments with options := arguments.options ++ [(spec.name, value)] }

/-- The arguments with an option whose value is accepted. -/
def addValue (arguments : Arguments) (spec : OptionSpec) (rule : ValueRule) (value : String) :
    Option Arguments :=
  if rule.accepts value then arguments.addOption spec value else none

/-- The arguments with operands. -/
def addOperands (arguments : Arguments) (operands : List String) : Arguments :=
  { arguments with operands := arguments.operands ++ operands }

end Arguments

/-- The arguments after reading one of them, and the option that waits for its value. -/
abbrev Progress := Arguments × Option (OptionSpec × ValueRule)

/-- Reads the letters of an argument; the letter of an option with a value takes the rest of them.
-/
def readLetters (specs : List OptionSpec) (arguments : Arguments) : List Char → Option Progress
  | [] => some (arguments, none)
  | c :: cs => do
    let spec ← specs.find? fun spec => spec.letter = some c
    match spec.value, cs with
    | none, _ => readLetters specs (← arguments.addOption spec "") cs
    | some rule, [] => some (arguments, some (spec, rule))
    | some rule, '=' :: value => return (← arguments.addValue spec rule (String.ofList value), none)
    | some rule, value => return (← arguments.addValue spec rule (String.ofList value), none)

/-- Reads an option given by its name. -/
def readName (specs : List OptionSpec) (arguments : Arguments) (text : List Char) :
    Option Progress := do
  let name := String.ofList (text.takeWhile (· != '='))
  let spec ← specs.find? fun spec => spec.name = name && !spec.letterOnly
  match spec.value, text.dropWhile (· != '=') with
  | none, [] => return (← arguments.addOption spec "", none)
  | none, _ => none
  | some rule, [] => some (arguments, some (spec, rule))
  | some rule, _ :: value => return (← arguments.addValue spec rule (String.ofList value), none)

/-- Whether an argument looks like an option. -/
def looksLikeOption (argument : String) : Bool :=
  argument.toList.head? = some '-' && argument != "-"

/-- Reads an argument that no option waits for. -/
def readArgument (specs : List OptionSpec) (arguments : Arguments) (argument : String) :
    Option Progress :=
  if looksLikeOption argument then
    match argument.toList with
    | '-' :: '-' :: name => readName specs arguments name
    | '-' :: letters => readLetters specs arguments letters
    | _ => none
  else
    some (arguments.addOperands [argument], none)

/-- Reads the arguments of a command, the first one as the value of an option that waits for it. -/
def readFrom (specs : List OptionSpec) : Progress → List String → Option Arguments
  | (arguments, none), [] => some arguments
  | (_, some _), [] => none
  | (arguments, some (spec, rule)), argument :: rest => do
    if looksLikeOption argument then none
    readFrom specs (← arguments.addValue spec rule argument, none) rest
  | (arguments, none), argument :: rest =>
    if argument = "--" then some (arguments.addOperands rest)
    else do readFrom specs (← readArgument specs arguments argument) rest

/-- The arguments of a command, if they are well formed. -/
def Arguments.read (specs : List OptionSpec) (arguments : List String) : Option Arguments :=
  readFrom specs ({}, none) arguments

end ServiceBindings.CommandLine
