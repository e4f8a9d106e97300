import ServiceBindings.CommandLine.Answer

/-!
# The command line

Reads the schema, prints the answer of the command, and writes its files.
-/

namespace ServiceBindings.CommandLine

/-- The number of a system error. -/
def errorNumber? : IO.Error → Option Nat
  | .noFileOrDirectory _ code _ => some code.toNat
  | .alreadyExists _ code _ => some code.toNat
  | .inappropriateType _ code _ => some code.toNat
  | .invalidArgument _ code _ => some code.toNat
  | .permissionDenied _ code _ => some code.toNat
  | .resourceExhausted _ code _ => some code.toNat
  | .noSuchThing _ code _ => some code.toNat
  | .otherError code _ => some code.toNat
  | .illegalOperation code _ => some code.toNat
  | _ => none

/-- The file error of a system error. -/
def fileError (error : IO.Error) : FileError :=
  match errorNumber? error with
  | some 2 => .notFound
  | some 17 => .alreadyExists
  | some 20 => .notADirectory
  | some 21 => .isADirectory
  | some 36 => .nameTooLong
  | _ => .other (toString error)

/-- Does something with files, or tells why that is not possible. -/
def attempt {α : Type} (action : IO α) : IO (Except FileError α) := do
  try
    return .ok (← action)
  catch error =>
    return .error (fileError error)

/-- Writes a file, with the directories on the way to it. -/
def writeFile (path text : String) : IO Unit := do
  let directory := PathText.directory path
  if !directory.isEmpty then IO.FS.createDirAll directory
  IO.FS.writeFile path text

/-- Writes files, up to the first one that cannot be written. -/
def writeAll : List (String × String) → IO (Option CommandError)
  | [] => return none
  | (path, text) :: rest => do
    match ← attempt (writeFile path text) with
    | .error error => return some (.write path error)
    | .ok _ => writeAll rest

/-- The text of the schema of a command. -/
def readSchema (path : String) : IO String := do
  if path = standardInput then (← IO.getStdin).readToEnd else IO.FS.readFile path

/-- Prints an answer; the result is the exit code. -/
def print (answer : Answer) : IO UInt32 := do
  IO.print answer.output
  IO.eprint answer.errorOutput
  return answer.exitCode.toUInt32

/-- Performs a command. -/
def perform (command : Command) : IO UInt32 := do
  match ← attempt (readSchema command.schemaPath) with
  | .error error => print (.fail (.read command.schemaPath error))
  | .ok text =>
    let answer := command.answer (← (← IO.getStderr).isTty) text
    match ← writeAll answer.files with
    | none => print answer
    | some error => print { answer with error := some error }

end ServiceBindings.CommandLine

open ServiceBindings.CommandLine in
/-- The tool. -/
def main (arguments : List String) : IO UInt32 := do
  match Invocation.parse arguments with
  | none =>
    IO.eprintln ("usage: " ++ toolName ++ " <generate|check|routes> [options] <schema>")
    return 2
  | some .version => print versionAnswer
  | some (.run command) => perform command
