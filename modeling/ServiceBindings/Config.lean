/-!
# Configuration

What a user chooses about the generated code.
-/

namespace ServiceBindings

/-- How modules are laid out in files. -/
inductive OutputMode where
  /-- One file for each module that is not inline. -/
  | directory
  /-- Everything in the file of the root module. -/
  | singleFile
  deriving DecidableEq, Repr

/-- What a user chooses about the generated code. -/
structure Config where
  /-- The path of the crate that the generated code builds on. -/
  cratePath : String := "::weaver_runtime"
  outputMode : OutputMode := .directory
  /-- Whether the HTTP module is generated. -/
  http : Bool := true
  /-- Whether only declarations that operations need are generated. -/
  omitUnreachable : Bool := false
  /-- The name in the first line of every file. -/
  generator : String := "weaver"
  deriving Repr

/-- The path of an item of the host crate. -/
def Config.host (config : Config) (path : String) : String :=
  config.cratePath ++ "::" ++ path

/-- The path of an item of a crate that the host crate re-exports. -/
def Config.reexported (config : Config) (path : String) : String :=
  config.cratePath ++ "::vendored::" ++ path

end ServiceBindings
