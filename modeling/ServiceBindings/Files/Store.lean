import ServiceBindings.Text.Lines

/-!
# Files

A store of files in directories, and what goes wrong when a path does not lead where it should. A
path is followed name by name: every name but the last has to be that of a directory. Paths start at
the working directory, or with a slash at the root.
-/

namespace ServiceBindings

/-- Why a file cannot be read or written. -/
inductive FileError where
  | notFound
  | alreadyExists
  | notADirectory
  | isADirectory
  | nameTooLong
  /-- A name with a zero character in it. -/
  | zeroInName
  /-- Any other reason, in the words of the system. -/
  | other (text : String)
  deriving DecidableEq, Repr

/-- The text of a file error. -/
def FileError.message : FileError → String
  | notFound => "No such file or directory (os error 2)"
  | alreadyExists => "File exists (os error 17)"
  | notADirectory => "Not a directory (os error 20)"
  | isADirectory => "Is a directory (os error 21)"
  | nameTooLong => "File name too long (os error 36)"
  | zeroInName => "file name contained an unexpected NUL byte"
  | other text => text

/-! ### Places -/

/-- A place by the names that lead to it. What the working directory itself is called is not known,
so no name leads into it from outside. -/
inductive Place where
  /-- Below the working directory. -/
  | inside (names : List String)
  /-- Below the root, but not below the working directory. -/
  | outside (names : List String)
  deriving DecidableEq, Repr

namespace Place

/-- The names of the directory that holds the working directory. -/
def above : List String := ["tmp"]

/-- The directory that holds a place; the root holds itself. -/
def parent : Place → Place
  | inside [] => outside above
  | inside names => inside names.dropLast
  | outside names => outside names.dropLast

/-- The place of a name in a directory. -/
def child (name : String) : Place → Place
  | inside names => inside (names ++ [name])
  | outside names => outside (names ++ [name])

/-- The place that a path starts from. -/
def start (path : String) : Place :=
  if path.toList.head? = some '/' then outside [] else inside []

end Place

/-! ### Paths -/

namespace PathText

/-- The longest name of a file, in bytes. -/
def maxNameSize : Nat := 255

/-- The longest path, in bytes. -/
def maxSize : Nat := 4095

/-- Whether a path is too long to be followed. -/
def isTooLong (path : String) : Bool :=
  maxSize < path.utf8ByteSize

/-- The pieces of a path between slashes. -/
def pieces (path : String) : List String :=
  (Text.pieces '/' path.toList).map String.ofList

/-- The names of a path; a slash at the end stands for the directory itself. -/
def names (path : String) : List String :=
  let named := (pieces path).filter fun piece => !piece.isEmpty
  if (pieces path).getLast? = some "" then named ++ ["."] else named

/-- The path of a file below a directory. -/
def join (directory path : String) : String :=
  if directory.toList.getLast? = some '/' then directory ++ path else directory ++ "/" ++ path

/-- The path of the directory of a file, without the names at its end that lead nowhere. -/
def directory (path : String) : String :=
  let isIdle (piece : String) : Bool := piece.isEmpty || piece = "."
  "/".intercalate ((pieces path).dropLast.reverse.dropWhile isIdle).reverse

end PathText

/-! ### Stores -/

/-- What is found at a place. -/
inductive FileEntry where
  | directory
  | file (text : String)
  /-- A device that holds nothing and forgets what is written to it. -/
  | sink
  deriving DecidableEq, Repr

/-- The directories that every system has at its root. -/
def systemDirectories : List String := [
  "bin", "dev", "etc", "home", "lib", "mnt", "opt", "proc", "root", "run", "sbin", "srv", "sys",
  "tmp", "usr", "var"]

/-- Files and directories by their places. The root and the working directory are always there. -/
structure FileStore where
  entries : List (Place × FileEntry) :=
    (.outside ["dev", "null"], .sink)
      :: systemDirectories.map fun name => (.outside [name], .directory)
  deriving Repr

namespace FileStore

/-- What is found at a place. -/
def entry? (store : FileStore) (place : Place) : Option FileEntry :=
  if place = .inside [] || place = .outside [] then some .directory
  else store.entries.lookup place

/-- The store with something put at a place. -/
def put (store : FileStore) (place : Place) (entry : FileEntry) : FileStore :=
  ⟨store.entries.filter (fun other => other.1 != place) ++ [(place, entry)]⟩

/-- The store in which the standard input can be read like a file. -/
def withInput (store : FileStore) (input : String) : FileStore :=
  store.put (.outside ["dev", "stdin"]) (.file input)

/-- Fails unless there is a directory at a place. -/
def checkDirectory (store : FileStore) (place : Place) : Except FileError Unit :=
  match store.entry? place with
  | none => .error .notFound
  | some .directory => .ok ()
  | some _ => .error .notADirectory

/-- The place that a name leads to from a directory. -/
def step (place : Place) (name : String) : Except FileError Place :=
  if name = "." then .ok place
  else if name = ".." then .ok place.parent
  else if PathText.maxNameSize < name.utf8ByteSize then .error .nameTooLong
  else .ok (place.child name)

/-- The place that names lead to; all but the last one have to lead to directories. -/
def walk (store : FileStore) (place : Place) : List String → Except FileError Place
  | [] => .ok place
  | name :: rest => do
    store.checkDirectory place
    store.walk (← step place name) rest

/-- The place that a path leads to. -/
def locate (store : FileStore) (path : String) : Except FileError Place :=
  if PathText.isTooLong path then .error .nameTooLong
  else store.walk (Place.start path) (PathText.names path)

/-- The text of a file. -/
def read (store : FileStore) (path : String) : Except FileError String := do
  match store.entry? (← store.locate path) with
  | none => .error .notFound
  | some .directory => .error .isADirectory
  | some (.file text) => .ok text
  | some .sink => .ok ""

/-- Whether names lead to a directory. -/
def leadsToDirectory (store : FileStore) (start : Place) (names : List String) : Bool :=
  match store.walk start names with
  | .ok place => store.entry? place = some .directory
  | .error _ => false

/-- Makes the directory of a name in the directory that other names lead to. -/
def makeDirectory (store : FileStore) (start : Place) (names : List String) (name : String) :
    Except FileError FileStore := do
  let place ← store.walk start names
  store.checkDirectory place
  if name = ".." then .error .alreadyExists
  let place ← step place name
  if (store.entry? place).isSome then .error .alreadyExists
  return store.put place .directory

/-- Makes the directory that names lead to, given from the last to the first, and those on the way
to it, unless they exist. -/
def makeDirectories (store : FileStore) (start : Place) :
    List String → Except FileError FileStore
  | [] => .ok store
  | name :: names =>
    match store.makeDirectory start names.reverse name with
    | .ok store => .ok store
    | .error .notFound => do
      let store ← store.makeDirectories start names
      if store.leadsToDirectory start (name :: names).reverse then return store
      store.makeDirectory start names.reverse name
    | .error error =>
      if store.leadsToDirectory start (name :: names).reverse then .ok store else .error error

/-- Writes a file, with the directories on the way to it. -/
def write (store : FileStore) (path text : String) : Except FileError FileStore := do
  if path.toList.any fun c => c.toNat = 0 then .error .zeroInName
  let directory := PathText.directory path
  if PathText.isTooLong directory then .error .nameTooLong
  let names := (PathText.names directory).filter (· != ".")
  let store ← store.makeDirectories (Place.start path) names.reverse
  let place ← store.locate path
  match store.entry? place with
  | some .directory => .error .isADirectory
  | some .sink => .ok store
  | _ => .ok (store.put place (.file text))

/-- The store that holds given files. -/
def ofFiles (files : List (String × String)) : FileStore :=
  files.foldl (fun store (path, text) => (store.write path text).toOption.getD store) {}

/-- The files below the working directory by their paths. -/
def files (store : FileStore) : List (String × String) :=
  store.entries.filterMap fun
    | (.inside names, .file text) => some ("/".intercalate names, text)
    | _ => none

end FileStore

end ServiceBindings
