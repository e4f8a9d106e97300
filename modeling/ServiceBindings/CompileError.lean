import ServiceBindings.Module.Path
import ServiceBindings.Schema.Types

/-!
# Compilation errors

What stops a compilation: a document that cannot be read, a graph that is not consistent, or a type
that cannot be spelled where it is used. Problems that leave room to go on are diagnostics instead.
-/

namespace ServiceBindings

/-- What stops a compilation. -/
inductive CompileError where
  /-- A reference between modules cannot be written or read. -/
  | path (error : PathError)
  /-- The document is not a schema. -/
  | document
  /-- There is no first namespace, or it has a parent. -/
  | missingGlobalNamespace
  | unknownType (id : TypeId)
  | unknownNamespace (id : NamespaceId)
  | notAnInterface (id : TypeId)
  /-- Following the parents of a namespace does not lead to the global one. -/
  | detachedNamespace (name : String)
  | anonymousWithoutName (id : TypeId)
  | missingNamespace (id : TypeId) (name : String)
  | literalType (id : TypeId)
  | notADeclaration (id : TypeId) (kind : String)
  /-- An array or a map that contains nothing but arrays and maps without end. -/
  | endlessContainer (id : TypeId)
  deriving DecidableEq, Repr

/-- The text of an error. -/
def CompileError.message : CompileError → String
  | path error => error.message
  | document => "invalid schema document: the text does not describe a schema"
  | missingGlobalNamespace => "the first namespace must be the global namespace (no parent)"
  | unknownType id => id.display ++ " does not exist"
  | unknownNamespace id => id.display ++ " does not exist"
  | notAnInterface id => id.display ++ " is used as an operation container but is not an interface"
  | detachedNamespace name =>
    "namespace `" ++ name ++ "` is not reachable from the global namespace"
  | anonymousWithoutName id =>
    "declaration " ++ id.display ++ " has neither a name nor an alternative name"
  | missingNamespace id name =>
    "declaration `" ++ name ++ "` (" ++ id.display ++ ") has no namespace"
  | literalType id => "literal type " ++ id.display ++ " used where a type is expected"
  | notADeclaration id kind =>
    id.display ++ " is a " ++ kind ++ ", which cannot be declared on its own"
  | endlessContainer id => id.display ++ " contains only itself"

end ServiceBindings
