import ServiceBindings.Draft.Completion
import ServiceBindings.Draft.Surface
import ServiceBindings.Module.Layout
import ServiceBindings.Schema.Link

/-!
# Compiling a schema

From a schema to the modules of the generated code: the declarations of the service and whatever
they need, the HTTP surface, and the root module that offers the service namespace.
-/

namespace ServiceBindings

namespace Job

/-- The documentation of the root module. -/
def rootDoc (service : Service) : Option String :=
  match service.title, service.version with
  | some title, some version => some (title ++ " (version " ++ version ++ ")")
  | some title, none => some title
  | none, some version => some ("Version " ++ version)
  | none, none => none

/-- Writes the root module, which offers the module of the service. -/
def writeRoot (job : Job) (m : ModuleId) : Drafting Unit := do
  match ModulePath.root.moduleReference (← Drafting.pathOf m) with
  | .error error => throw (.path error)
  | .ok reference =>
    Drafting.write .root ["#[allow(unused_imports)]", "pub use " ++ reference ++ "::*;"]
    modify fun draft => { draft with modules := draft.modules.setDoc .root (rootDoc job.service) }

/-- Writes the whole code of a service. -/
def run (job : Job) : Drafting Unit := do
  let m ← job.place job.service.root
  job.firstDeclarations.forM Drafting.request
  job.complete
  match job.service.http with
  | some http =>
    if job.config.http then
      job.writeSurface http
      job.complete
  | none => pure ()
  job.writeRoot m

end Job

/-- The outcome of a compilation. -/
structure Compilation where
  modules : ModuleTree
  diagnostics : List Diagnostic
  outputMode : OutputMode
  generator : String

/-- The files of a compilation, the root module first. -/
def Compilation.files (compilation : Compilation) : List OutputFile :=
  compilation.modules.files compilation.outputMode compilation.generator

/-- The code of a service over a graph. -/
def compileGraph (graph : TypeGraph) (service : Service) (config : Config) :
    Except CompileError Compilation :=
  let job : Job := { graph, service, config }
  match job.run.run.run Draft.start with
  | (.ok _, draft) => .ok ⟨draft.modules, draft.diagnostics, config.outputMode, config.generator⟩
  | (.error error, _) => .error error

/-- The code of a schema. -/
def compile (schema : Schema) (config : Config) : Except CompileError Compilation :=
  compileGraph schema.graph schema.service config

end ServiceBindings
