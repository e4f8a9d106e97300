/-!
# Module paths

A module of the generated code is named by its path from the crate root, and an item by the module
that declares it and its name there. References are written relative to the module they stand in:
`super` leads to the parent and `::` separates the steps.
-/

namespace ServiceBindings

/-- What is wrong with a reference between modules. -/
inductive PathError where
  /-- Two different modules with no step between them. -/
  | emptyPath (origin target : String)
  /-- A reference with more `super` steps than there are parents. -/
  | ascendAboveRoot (reference origin : String)
  /-- A reference that ends without naming an item. -/
  | missingItem (reference : String)
  deriving DecidableEq, Repr

/-- The text of a path error. -/
def PathError.message : PathError → String
  | emptyPath origin target => s!"resolved empty module path from `{origin}` to `{target}`"
  | ascendAboveRoot reference origin =>
    s!"reference `{reference}` ascends above the crate root (from `{origin}`)"
  | missingItem reference => s!"reference `{reference}` does not name an item"

/-- The path of a module from the crate root. -/
structure ModulePath where
  parts : List String := []
  deriving DecidableEq, Repr

/-- An item and the module that declares it. -/
structure ItemPath where
  module : ModulePath
  item : String
  deriving DecidableEq, Repr

namespace ModulePath

/-- The crate root. -/
def root : ModulePath := ⟨[]⟩

/-- Whether a path is that of the crate root. -/
def isRoot (path : ModulePath) : Bool :=
  path.parts.isEmpty

/-- The path of a module below this one. -/
def enter (path : ModulePath) (names : List String) : ModulePath :=
  ⟨path.parts ++ names⟩

/-- The path of the parent module; the root has none. -/
def parent? (path : ModulePath) : Option ModulePath :=
  if path.parts.isEmpty then none else some ⟨path.parts.dropLast⟩

/-- The absolute spelling of a path. -/
def display (path : ModulePath) : String :=
  String.join ("crate" :: path.parts.map ("::" ++ ·))

/-! ### From a module to another -/

/-- The steps that lead from one path to another: `super` for each part of the first that the two do
not share, then the parts of the second after the shared ones. -/
def steps : List String → List String → List String
  | a :: as, b :: bs =>
    if a = b then steps as bs else List.replicate (as.length + 1) "super" ++ b :: bs
  | as, bs => List.replicate as.length "super" ++ bs

/-- Steps written as a reference. -/
def joinSteps (steps : List String) : String :=
  "::".intercalate steps

/-- The reference from this module to another one. -/
def moduleReference (path target : ModulePath) : Except PathError String :=
  let reference := joinSteps (steps path.parts target.parts)
  if reference.isEmpty && path != target then .error (.emptyPath path.display target.display)
  else .ok reference

/-- The reference from this module to an item of another one. -/
def itemReference (path target : ModulePath) (item : String) : String :=
  let reference := joinSteps (steps path.parts target.parts)
  if reference.isEmpty then item else reference ++ "::" ++ item

/-! ### Reading a reference -/

/-- The steps of a reference: the pieces between `::`. -/
def splitSteps : List Char → List (List Char)
  | [] => [[]]
  | ':' :: ':' :: cs => [] :: splitSteps cs
  | c :: cs =>
    match splitSteps cs with
    | [] => [[c]]
    | piece :: rest => (c :: piece) :: rest

/-- The parts reached by following steps: `super` drops the last part and any other step is added.
No parts are reached from above the root. -/
def follow : List String → List String → Option (List String)
  | parts, [] => some parts
  | parts, step :: rest =>
    if step = "super" then
      if parts.isEmpty then none else follow parts.dropLast rest
    else
      follow (parts ++ [step]) rest

/-- The item that a reference written in this module names; the last step is the item. -/
def resolve (path : ModulePath) (reference : String) : Except PathError ItemPath :=
  let steps := (splitSteps reference.toList).map String.ofList
  let item := steps.getLastD ""
  if item = "" || item = "super" then .error (.missingItem reference)
  else
    match follow path.parts steps.dropLast with
    | none => .error (.ascendAboveRoot reference path.display)
    | some parts => .ok ⟨⟨parts⟩, item⟩

end ModulePath

namespace ItemPath

/-- The reference to an item from a module. -/
def relativeTo (path : ItemPath) (origin : ModulePath) : String :=
  origin.itemReference path.module path.item

/-- The absolute spelling of an item. -/
def display (path : ItemPath) : String :=
  path.module.display ++ "::" ++ path.item

end ItemPath

end ServiceBindings
