import ServiceBindings.Module.Path
import ServiceBindings.Schema.Types

/-!
# Module trees

The modules of the generated code, in the order of their creation; the first one is the crate root.
The items of a module are texts and child modules, in the order in which they were added.
-/

namespace ServiceBindings

/-- The position of a module in its tree. -/
structure ModuleId where
  index : Nat
  deriving DecidableEq, Repr

/-- The crate root. -/
def ModuleId.root : ModuleId := ⟨0⟩

/-- From where a module can be seen. -/
inductive Visibility where
  | everywhere
  | crate
  | parent
  | hidden
  deriving DecidableEq, Repr

/-- What stands before the declaration of a module. -/
def Visibility.qualifier : Visibility → String
  | everywhere => "pub "
  | crate => "pub(crate) "
  | parent => "pub(super) "
  | hidden => ""

/-- What a module holds. -/
inductive ModuleItem where
  | text (body : String)
  | child (id : ModuleId)
  deriving DecidableEq, Repr

/-- A module. -/
structure Module where
  name : String
  path : ModulePath
  /-- The namespace that the module was made for. -/
  origin : Option NamespaceId := none
  doc : Option String := none
  visibility : Visibility := .everywhere
  /-- Whether the module is written inside its parent. -/
  inline : Bool := false
  items : List ModuleItem := []
  deriving DecidableEq, Repr

/-- The child modules of a module. -/
def Module.children (m : Module) : List ModuleId :=
  m.items.filterMap fun item =>
    match item with
    | .child id => some id
    | .text _ => none

/-- The texts of a module. -/
def Module.texts (m : Module) : List String :=
  m.items.filterMap fun item =>
    match item with
    | .text body => some body
    | .child _ => none

/-- The modules of the generated code. -/
structure ModuleTree where
  modules : List Module
  deriving DecidableEq, Repr

namespace ModuleTree

/-- The tree with the crate root only. -/
def empty : ModuleTree := ⟨[{ name := "", path := .root }]⟩

/-- The number of modules. -/
def size (tree : ModuleTree) : Nat :=
  tree.modules.length

/-- The module at a position. -/
def get? (tree : ModuleTree) (id : ModuleId) : Option Module :=
  tree.modules[id.index]?

/-- The path of a module. -/
def path (tree : ModuleTree) (id : ModuleId) : ModulePath :=
  ((tree.get? id).map (·.path)).getD .root

/-- The child modules of a module. -/
def children (tree : ModuleTree) (id : ModuleId) : List ModuleId :=
  ((tree.get? id).map (·.children)).getD []

/-- The tree with a module changed. -/
def modify (tree : ModuleTree) (id : ModuleId) (f : Module → Module) : ModuleTree :=
  ⟨tree.modules.modify id.index f⟩

/-- The tree with an item added to a module. -/
def pushItem (tree : ModuleTree) (id : ModuleId) (item : ModuleItem) : ModuleTree :=
  tree.modify id fun m => { m with items := m.items ++ [item] }

/-- The tree with a text added to a module. -/
def appendText (tree : ModuleTree) (id : ModuleId) (body : String) : ModuleTree :=
  tree.pushItem id (.text body)

/-- The tree with the documentation of a module replaced. -/
def setDoc (tree : ModuleTree) (id : ModuleId) (doc : Option String) : ModuleTree :=
  tree.modify id fun m => { m with doc := doc }

/-- The tree with the namespace of a module replaced. -/
def setOrigin (tree : ModuleTree) (id : ModuleId) (origin : NamespaceId) : ModuleTree :=
  tree.modify id fun m => { m with origin := some origin }

/-- Makes a module and adds it as the last item of its parent. -/
def addChild (tree : ModuleTree) (parent : ModuleId) (name : String) (visibility : Visibility)
    (inline : Bool) : ModuleId × ModuleTree :=
  let id : ModuleId := ⟨tree.size⟩
  let child : Module := { name, path := (tree.path parent).enter [name], visibility, inline }
  (id, pushItem ⟨tree.modules ++ [child]⟩ parent (.child id))

/-- Whether a module has a given name. -/
def hasName (tree : ModuleTree) (id : ModuleId) (name : String) : Bool :=
  match tree.get? id with
  | some m => m.name = name
  | none => false

/-- The first child of a name. -/
def findChild? (tree : ModuleTree) (parent : ModuleId) (name : String) : Option ModuleId :=
  (tree.children parent).find? fun id => tree.hasName id name

/-- The module reached from another one by following names. -/
def findFrom? (tree : ModuleTree) : ModuleId → List String → Option ModuleId
  | id, [] => some id
  | id, name :: names => (tree.findChild? id name).bind fun child => findFrom? tree child names

/-- The module at a path. -/
def find? (tree : ModuleTree) (path : ModulePath) : Option ModuleId :=
  tree.findFrom? .root path.parts

end ModuleTree

end ServiceBindings
