import ServiceBindings.Code.Record
import ServiceBindings.Naming.Identifier

/-!
# Operation traits

The code of a container of operations: a trait with a method for each operation. An operation with
optional parameters has a struct for these and a second method that takes it; the plain method
forwards to that one.
-/

namespace ServiceBindings.Code

/-- An optional parameter of an operation. -/
structure OptionalParameter where
  doc : Option String
  ident : String
  type : String
  deriving DecidableEq, Repr

/-- The method of an operation. -/
structure Method where
  doc : Option String
  name : String
  /-- The required parameters with their types. -/
  required : List (String × String)
  optional : List OptionalParameter
  /-- The type that the method returns. -/
  result : String
  /-- The name of the method that takes the optional parameters. -/
  optionsMethod : String
  /-- The name of the struct of the optional parameters. -/
  optionsType : String
  deriving DecidableEq, Repr

/-- A trait. -/
structure TraitDecl where
  doc : Option String
  name : String
  methods : List Method
  deriving DecidableEq, Repr

/-! ### Names -/

/-- The method of an operation. -/
def methodName (operation : String) : String :=
  Identifier.escape (snakeCase operation)

/-- The method of an operation that takes the optional parameters. -/
def optionsMethodName (operation : String) : String :=
  Identifier.escape (snakeCase operation ++ "_with_options")

/-- The struct of the optional parameters of an operation. -/
def optionsTypeName (traitName operation : String) : String :=
  traitName ++ pascalCase operation ++ "Options"

/-! ### Text -/

/-- The declaration of a parameter, after others. -/
def parameterText (parameter : String × String) : String :=
  ", " ++ parameter.1 ++ ": " ++ parameter.2

namespace Method

/-- The beginning of a method up to its last required parameter. -/
def head (method : Method) (name : String) : String :=
  "fn " ++ name ++ "(&mut self" ++ String.join (method.required.map parameterText)

/-- The lines of a method. -/
def lines (method : Method) : List String :=
  let plain := method.head method.name ++ ") -> " ++ method.result
  docComment method.doc ++
    if method.optional.isEmpty then
      [plain ++ ";"]
    else
      let forwarded := String.join (method.required.map fun parameter => parameter.1 ++ ", ")
      block plain ["self." ++ method.optionsMethod ++ "(" ++ forwarded ++ "Default::default())"]
        ++ ["", method.head method.optionsMethod ++ ", options: " ++ method.optionsType ++ ") -> "
          ++ method.result ++ ";"]

/-- The lines of the struct of the optional parameters. -/
def optionsLines (method : Method) : List String :=
  ("/// Optional parameters of `" ++ method.name ++ "`.")
    :: derives ["Debug", "Clone", "Default"]
    :: block ("pub struct " ++ method.optionsType)
      (method.optional.flatMap fun parameter =>
        docComment parameter.doc
          ++ ["pub " ++ parameter.ident ++ ": " ++ optionOf parameter.type ++ ","])

end Method

/-- The lines of a trait, after the structs of optional parameters. -/
def TraitDecl.lines (container : TraitDecl) : List String :=
  let structs := (container.methods.filter fun method => !method.optional.isEmpty).flatMap
    fun method => method.optionsLines ++ [""]
  let errorType := ["type Error<OperationError>: ::std::error::Error + Send + Sync + 'static;"]
  structs ++ docComment container.doc
    ++ block ("pub trait " ++ container.name)
      (separated (errorType :: container.methods.map Method.lines))

end ServiceBindings.Code
