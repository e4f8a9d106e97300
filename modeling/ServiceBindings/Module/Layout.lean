import ServiceBindings.Code.Lines
import ServiceBindings.Module.Tree

/-!
# Files of a module tree

A module is written to a file of its own, or as a block inside its parent when it is inline, lies in
an inline module, or everything goes to a single file. The entries of a file say what it holds;
their lines are its text.
-/

namespace ServiceBindings

/-- A generated file, its path relative to the output directory. -/
structure OutputFile where
  path : String
  text : String
  deriving DecidableEq, Repr

/-- What stands in a file. -/
inductive LayoutEntry where
  /-- A text of a module. -/
  | text (body : String)
  /-- The declaration of a module that has a file of its own. -/
  | declaration (id : ModuleId)
  /-- A module written where it is declared. -/
  | block (id : ModuleId) (entries : List LayoutEntry)
  deriving Repr

namespace ModuleTree

/-! ### Entries -/

/-- The entries that the items of a module become; with `forced` every child is a block. Modules are
nested at most `depth` deep. -/
def entriesWithin (tree : ModuleTree) : Nat → Bool → ModuleId → List LayoutEntry
  | 0, _, _ => []
  | depth + 1, forced, id =>
    ((tree.get? id).map (·.items)).getD [] |>.map fun item =>
      match item with
      | .text body => .text body
      | .child child =>
        if forced || ((tree.get? child).map (·.inline)).getD false then
          .block child (entriesWithin tree depth true child)
        else
          .declaration child

/-- The entries of the file of a module. A child is made after its parent, so no nesting is deeper
than the number of modules. -/
def entries (tree : ModuleTree) (mode : OutputMode) (id : ModuleId) : List LayoutEntry :=
  tree.entriesWithin tree.size (mode = .singleFile) id

/-- The modules that entries leave to files of their own. -/
def declared (entries : List LayoutEntry) : List ModuleId :=
  entries.filterMap fun entry =>
    match entry with
    | .declaration id => some id
    | _ => none

/-! ### Text -/

/-- The beginning of the declaration of a module. -/
def moduleHead (tree : ModuleTree) (id : ModuleId) : String :=
  match tree.get? id with
  | some m => m.visibility.qualifier ++ "mod " ++ m.name
  | none => "mod "

/-- The documentation of a module. -/
def docLines (tree : ModuleTree) (marker : String) (id : ModuleId) : List String :=
  match (tree.get? id).bind (·.doc) with
  | some doc => (Text.linesOf doc).map (Code.docLine marker)
  | none => []

/-- The lines of a text, without blanks at its end. -/
def textLines (body : String) : List String :=
  (Text.lines (Text.trimEnd body.toList)).map String.ofList

mutual

/-- The lines of an entry. -/
def entryLines (tree : ModuleTree) : LayoutEntry → List String
  | .text body => textLines body
  | .declaration id => [tree.moduleHead id ++ ";"]
  | .block id entries =>
    tree.docLines "///" id ++ [tree.moduleHead id ++ " \x7b"]
      ++ Code.indent (blockLines tree entries) ++ ["\x7d"]

/-- The lines of the entries of a block, with an empty line between two entries. -/
def blockLines (tree : ModuleTree) : List LayoutEntry → List String
  | [] => []
  | [entry] => entryLines tree entry
  | entry :: rest => entryLines tree entry ++ "" :: blockLines tree rest

end

/-- The lines of the file of a module: a notice, the documentation, and the entries, each after an
empty line. -/
def fileLines (tree : ModuleTree) (generator : String) (id : ModuleId)
    (entries : List LayoutEntry) : List String :=
  let doc :=
    match (tree.get? id).bind (·.doc) with
    | some _ => "" :: tree.docLines "//!" id
    | none => []
  ("// Generated by " ++ generator ++ ". Do not edit.") :: doc
    ++ entries.flatMap fun entry => "" :: tree.entryLines entry

/-! ### Files -/

/-- Whether a child of a module has a file of its own. -/
def hasFileChildren (tree : ModuleTree) (id : ModuleId) : Bool :=
  (tree.children id).any fun child => !((tree.get? child).map (·.inline)).getD true

/-- The path of the file of a module. -/
def filePath (tree : ModuleTree) (mode : OutputMode) (id : ModuleId) : String :=
  let path := tree.path id
  if path.isRoot then "mod.rs"
  else
    let stem := "/".intercalate path.parts
    if mode = .directory && tree.hasFileChildren id then stem ++ "/mod.rs" else stem ++ ".rs"

/-- The file of a module. -/
def file (tree : ModuleTree) (mode : OutputMode) (generator : String) (id : ModuleId) :
    OutputFile where
  path := tree.filePath mode id
  text := Text.unlines (tree.fileLines generator id (tree.entries mode id))

/-- The modules that have files, breadth first from those of a queue, at most `limit` of them. -/
def filedWithin (tree : ModuleTree) (mode : OutputMode) : Nat → List ModuleId → List ModuleId
  | 0, _ => []
  | _, [] => []
  | limit + 1, id :: queue =>
    id :: filedWithin tree mode limit (queue ++ declared (tree.entries mode id))

/-- The modules that have files, breadth first from the root. -/
def filed (tree : ModuleTree) (mode : OutputMode) : List ModuleId :=
  tree.filedWithin mode tree.size [.root]

/-- The files of a module tree. -/
def files (tree : ModuleTree) (mode : OutputMode) (generator : String) : List OutputFile :=
  (tree.filed mode).map (tree.file mode generator)

end ModuleTree

end ServiceBindings
