import ServiceBindings.CompileError
import ServiceBindings.Diagnostic.Basic
import ServiceBindings.Module.Tree
import ServiceBindings.Naming.Identifier
import ServiceBindings.Naming.Scope
import ServiceBindings.Schema.Scalar
import ServiceBindings.Text.Lines
import ServiceBindings.Worklist

/-!
# Drafts

A draft is the generated code while it grows: the module tree with what is known to be missing from
it. Declarations that a reference names wait in a worklist, and declarations that only exist because
a reference needed a name for them, the synthetic ones, wait in a queue. Registries remember the
names, modules and splits that were decided, so that they are decided once.
-/

namespace ServiceBindings

/-- A declaration that is written into the module of its namespace. -/
inductive DeclarationRef where
  /-- A named type. -/
  | type (id : TypeId)
  /-- The operations of a namespace. -/
  | operations (id : NamespaceId)
  deriving DecidableEq, Repr

/-- A declaration that exists because a reference needed a name for it. -/
inductive Synthetic where
  /-- A record or a union without a name. -/
  | anonymous (name : String) (id : TypeId)
  /-- Some variants of a union. -/
  | subset (name : String) (union : TypeId) (variants : List Nat)
  deriving DecidableEq, Repr

/-- The type and the name of a synthetic declaration. -/
def Synthetic.key : Synthetic → TypeId × String
  | anonymous name id => (id, name)
  | subset name union _ => (union, name)

/-- One side of what an operation returns. -/
inductive ReturnSide where
  /-- There is nothing to return. -/
  | nothing
  /-- A type, with the name it gets if it has none. -/
  | type (id : TypeId) (name : String)
  /-- A union of some of the variants. -/
  | union (path : ItemPath)
  deriving DecidableEq, Repr

/-- The two sides of what an operation returns. -/
structure ReturnSplit where
  success : ReturnSide
  error : ReturnSide
  deriving DecidableEq, Repr

/-- The generated code while it grows. -/
structure Draft where
  modules : ModuleTree
  diagnostics : List Diagnostic := []
  /-- The declarations that were named by a reference or a root. -/
  declarations : Worklist DeclarationRef := {}
  /-- The synthetic declarations that are still to be written, the oldest first. -/
  synthetics : List Synthetic := []
  /-- The names of types without a name. -/
  anonymous : List (TypeId × String) := []
  /-- The names of subsets of unions, by the union and the requested name. -/
  subsets : List ((TypeId × String) × String) := []
  /-- The synthetic declarations that were written. -/
  synthesized : List (TypeId × String) := []
  /-- The names taken in the module of synthetic declarations. -/
  syntheticNames : NameScope := {}
  /-- The modules of namespaces. -/
  places : List (NamespaceId × ModuleId) := []
  /-- The splits of what operations return. -/
  splits : List (OperationRef × ReturnSplit) := []
  deriving Repr

/-! ### The first modules -/

/-- The module of all data types. -/
def ModuleId.models : ModuleId := ⟨1⟩

/-- The module of the global namespace. -/
def ModuleId.global : ModuleId := ⟨2⟩

/-- The module of the synthetic declarations. -/
def ModuleId.synthetic : ModuleId := ⟨3⟩

/-- The path of the module of the synthetic declarations. -/
def syntheticPath : ModulePath := ⟨["models", "synthetic"]⟩

/-- The modules that every draft has. -/
def firstModules : ModuleTree :=
  let tree := (ModuleTree.empty.addChild .root "models" .everywhere false).2
  let tree := tree.setDoc .models (some "Data types declared by the service.")
  let tree := (tree.addChild .models "all" .everywhere false).2
  let tree := tree.setOrigin .global .global
  let tree := (tree.addChild .models "synthetic" .everywhere false).2
  tree.setDoc .synthetic (some "Named declarations for anonymous and partial types.")

/-- The draft that every compilation starts with. -/
def Draft.start : Draft :=
  { modules := firstModules, places := [(.global, .global)] }

/-! ### Drafting -/

/-- What is compiled, and how. -/
structure Job where
  graph : TypeGraph
  service : Service
  config : Config
  scalars : ScalarTable := .standard graph config

/-- A step that changes a draft; what it did before it failed stays. -/
abbrev Drafting := ExceptT CompileError (StateM Draft)

namespace Drafting

/-- Reports a problem. -/
def report (diagnostic : Diagnostic) : Drafting Unit :=
  modify fun draft => { draft with diagnostics := draft.diagnostics ++ [diagnostic] }

/-- Asks for a declaration to be written. -/
def request (declaration : DeclarationRef) : Drafting Unit :=
  modify fun draft => { draft with declarations := draft.declarations.add declaration }

/-- The path of a module. -/
def pathOf (id : ModuleId) : Drafting ModulePath := do
  return (← get).modules.path id

/-- Makes a module with documentation. -/
def addModule (parent : ModuleId) (name : String) (inline : Bool) (doc : String) :
    Drafting ModuleId :=
  modifyGet fun draft =>
    let (id, modules) := draft.modules.addChild parent name .everywhere inline
    (id, { draft with modules := modules.setDoc id (some doc) })

/-- Writes lines into a module. -/
def write (id : ModuleId) (lines : List String) : Drafting Unit :=
  modify fun draft => { draft with modules := draft.modules.appendText id (Text.unlines lines) }

end Drafting

end ServiceBindings
