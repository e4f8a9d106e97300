import ServiceBindings.Proofs.Http.SurfaceText

/-!
# The server calls methods as they are declared

The statement that the server runs for an endpoint fits the line in which the trait of its container
declares the method of the operation: it passes each required parameter in its place, and gives each
field of the struct of optional parameters once.  Both are lines of emitted texts.  If a parameter
of the operation is bound to nothing, then nothing is called, and that is reported once.
-/

namespace ServiceBindings

open Draft Drafting Text

/-! ### Statements -/

/-- The statement that calls a method of a backend. -/
def callStatement (backend method : String) (arguments : List String) : String :=
  "let result = self." ++ backend ++ "." ++ method ++ "(" ++ ", ".intercalate arguments
    ++ ").await;"

/-- The literal of the struct at a path. -/
def structLiteral (path : String) (fields : List (String × String)) : String :=
  path ++ " \x7b " ++ ", ".intercalate (fields.map fun (field, value) => field ++ ": " ++ value)
    ++ " \x7d"

/-- Whether the lines of a server have a backend in a field: the field has a type that is bounded by
the trait at a path. -/
def HasBackend (lines : List String) (field path : String) : Prop :=
  ∃ type, ("    pub " ++ field ++ ": " ++ type ++ ",") ∈ lines
    ∧ ("    " ++ type ++ ": " ++ path ++ ",") ∈ lines

namespace Job

variable {job : Job} {d : Draft} {endpoint : Endpoint}

/-- The method of an operation that the server calls: the one with options exactly if a parameter
that carries information is optional. -/
def calledMethod (job : Job) (operation : Operation) : String :=
  if job.optional operation = [] then Code.methodName operation.name
  else Code.optionsMethodName operation.name

/-- Whether a statement of a server calls a method of a backend as the lines of a trait in a module
declare it.  They have a signature with the name of each required parameter of the operation and the
spelling of its type.  The statement passes the fields of these names in their order; one that may
be absent is taken out, and one whose type is a reference is borrowed.

If there are optional parameters, then the signature has options as its last parameter.  These are a
struct in front of the trait that has the optional parameters as its fields, and the statement gives
each field of this struct once. -/
structure CallFits (job : Job) (d : Draft) (endpoint : Endpoint) (server m : ModuleId)
    (trait : String) (lines : List String) (backend statement : String) : Prop where
  exists_types : ∃ (type : Field → String) (result : String),
    (∀ parameter ∈ job.required endpoint.operation,
      Settled (job.spell parameter.type parameter.span .param (d.modules.path m)
        (parameterTypeName endpoint.operation.name parameter.name)) d (type parameter))
    ∧ Code.signatureLine (job.calledMethod endpoint.operation)
      ((job.required endpoint.operation).map
          (fun parameter => (Identifier.valueName parameter.name, type parameter))
        ++ if job.optional endpoint.operation = [] then []
          else [("options", Code.optionsTypeName trait endpoint.operation.name)])
      result ∈ lines
    ∧ statement = callStatement backend (job.calledMethod endpoint.operation)
      ((job.required endpoint.operation).map
          (fun parameter => requiredValue (job.config.host "server") (type parameter) parameter
            (endpoint.mayLack job.graph parameter))
        ++ if job.optional endpoint.operation = [] then []
          else [structLiteral ((d.modules.path server).itemReference (d.modules.path m)
              (Code.optionsTypeName trait endpoint.operation.name))
            ((job.optional endpoint.operation).map fun parameter =>
              (Identifier.valueName parameter.name,
                optionalValue parameter (endpoint.mayLack job.graph parameter)))])
  struct : job.optional endpoint.operation ≠ [] → ∃ part, part <:+: lines
    ∧ Code.readStruct? (Code.optionsTypeName trait endpoint.operation.name) part
      = some ((job.optional endpoint.operation).map fun parameter =>
        Identifier.valueName parameter.name)

/-- The statement of the call with the arguments for the parameters of an operation. -/
theorem reading_ofArguments (operation : Operation) (path host backend : String)
    (type : Field → String) (absent : Field → Bool) (answer : SuccessAnswer) :
  ServeAction.reading backend (.call (ServeCall.ofArguments operation.name path
      ((job.informative operation).map (argumentFor host type absent))) answer)
    = .call (callStatement backend (job.calledMethod operation)
      ((job.required operation).map
          (fun parameter => requiredValue host (type parameter) parameter (absent parameter))
        ++ if job.optional operation = [] then []
          else [structLiteral path ((job.optional operation).map fun parameter =>
            (Identifier.valueName parameter.name, optionalValue parameter (absent parameter)))]))
      answer
  := by
  have hrequired : ((job.informative operation).map (argumentFor host type absent)).filterMap
      CallArgument.required? = (job.required operation).map
        (fun parameter => requiredValue host (type parameter) parameter (absent parameter)) := by
    rw [List.filterMap_map]
    apply filterMap_eq_map_filter
    intro parameter
    cases hoptional : parameter.optional <;> simp [argumentFor, hoptional, CallArgument.required?]
  have hoptional : ((job.informative operation).map (argumentFor host type absent)).filterMap
      CallArgument.optional? = (job.optional operation).map fun parameter =>
        (Identifier.valueName parameter.name, optionalValue parameter (absent parameter)) := by
    rw [List.filterMap_map]
    apply filterMap_eq_map_filter
    intro parameter
    cases hoptional : parameter.optional <;> simp [argumentFor, hoptional, CallArgument.optional?]
  have hend : ").await;" = ")" ++ ".await;" := rfl
  rw [ServeAction.reading, ServeCall.ofArguments, hrequired, hoptional, calledMethod]
  unfold callStatement
  rw [hend]
  by_cases hnone : job.optional operation = []
  · simp only [hnone, if_pos, List.map_nil, List.isEmpty_nil, ServeCall.text, Option.toList_none,
      Code.commaSeparated, String.append_assoc]
  · have hopening : " \x7b " = " " ++ "\x7b " := rfl
    rw [if_neg hnone, if_neg hnone, if_neg (by simpa using hnone), structLiteral, hopening]
    simp only [ServeCall.text, Option.toList_some, List.map_cons, List.map_nil, Code.commaSeparated,
      Code.inBraces, String.append_assoc]

/-! ### Fitting -/

theorem IsBackend.isToken_typeParameter {path : ModulePath} {backend : Backend}
    (h : job.IsBackend d path backend) :
  IsToken backend.typeParameter
  := by
  obtain ⟨scope, hscope⟩ := h.typeParameter
  rw [hscope]
  apply NameScope.isToken_nameFor (Identifier.isToken_dropRaw (isToken_traitName h.traitName))

/-- The lines of the server have the backends. -/
theorem HoldsServer.hasBackend (hd : job.Session d) {m : ModuleId} {endpoints : List Endpoint}
    {backends : List Backend} {methods : List ServeMethod}
    (h : job.HoldsServer d m endpoints backends methods) {backend : Backend}
    (hmem : backend ∈ backends) (hbackend : job.IsBackend d ⟨["http", "server"]⟩ backend) :
  ∃ text ∈ d.modules.texts m, HasBackend (linesOf text) backend.field backend.bound
  := by
  have htype := hbackend.isToken_typeParameter.feed
  have hfield : '\n' ∉ backend.field.toList := by
    rw [hbackend.field]
    apply (Identifier.isToken_valueName backend.typeParameter).feed
  have hbound : '\n' ∉ backend.bound.toList := by
    rw [hbackend.bound]
    apply hbackend.feed_not_mem_itemReference hd (isToken_traitName hbackend.traitName).feed
  obtain ⟨text, htext, hlines⟩ := h.server
  obtain ⟨hstruct, hwhere⟩ := ServeMethod.backend_mem_serverLines (job.config.host "server")
    (Identifier.typeName (job.graph.namespaceName job.service.root) ++ "Server") methods hmem
  refine ⟨text, htext, backend.typeParameter, hlines.mem_linesOf hstruct ?_,
    hlines.mem_linesOf hwhere ?_⟩
  · apply isLine_append _ (by decide) (by decide)
    simp [hfield, htype]
  · apply isLine_append _ (by decide) (by decide)
    simp [hbound, htype]

/-- The statement for an endpoint whose parameters are bound fits the lines of the trait that
declares the method. -/
theorem HoldsTrait.callFits (hjob : job.IsStandard) (hd : job.Session d)
    (hsplits : ∀ reference split, d.splits.lookup reference = some split →
      IsSplit job.graph d.subsets reference split)
    {server m : ModuleId} (hserver : d.modules.path server = ⟨["http", "server"]⟩)
    {trait : Code.TraitDecl} (h : job.HoldsTrait d endpoint.http.operation.container m trait)
    {backend : Backend} {method : ServeMethod}
    (hserves : job.Serves d ⟨["http", "server"]⟩ backend endpoint method)
    (hoperation : endpoint.operation ∈ job.graph.operations endpoint.http.operation.container)
    (hbound : endpoint.unbound? job.graph (job.informative endpoint.operation) = none) :
  ∃ statement answer, method.action.reading method.backend = .call statement answer
    ∧ ∃ text ∈ d.modules.texts m, ("pub trait " ++ trait.name ++ " \x7b") ∈ linesOf text
    ∧ job.CallFits d endpoint server m trait.name (linesOf text) backend.field statement
  := by
  have hplaced := Session.placed hd
  obtain ⟨hmodule, hname⟩ := hserves.toIsBackend.agrees (hserves.container ▸ h)
  obtain ⟨declared, hpair, hsettled⟩ := mem_zip_of_forall₂ h.methods hoperation
  have hmem := (List.of_mem_zip hpair).2
  have hdeclared := method_settled hplaced hoperation hsettled
  have htrait := isToken_traitName h.name
  have hlegible := hdeclared.isLegible hjob hd hsplits htrait
  obtain ⟨type, htype, hrequired, hoptional⟩ := hdeclared.parameters
  obtain ⟨text, htext, hlines⟩ := h.text
  rcases serveAction_settled hplaced hoperation hserves.action with
    ⟨parameter, hunbound, -⟩ | ⟨-, arguments, split, harguments, -, haction⟩
  · rw [hbound] at hunbound
    cases hunbound
  · have hneeded : ∀ parameter ∈ job.required endpoint.operation,
        Settled (job.spell parameter.type parameter.span .param (d.modules.path m)
          (parameterTypeName endpoint.operation.name parameter.name)) d (type parameter) := by
      intro parameter hparameter
      obtain ⟨hparameter, hoptional⟩ := List.mem_filter.mp hparameter
      have hspelled := htype parameter hparameter
      rwa [if_neg (by simpa using hoptional)] at hspelled
    rw [← hmodule] at htype
    rw [arguments_eq hplaced htype harguments] at haction
    have hnone : declared.optional = [] ↔ job.optional endpoint.operation = [] := by
      rw [hoptional, List.map_eq_nil_iff]
    rw [haction, reading_ofArguments, hserves.method_backend, hmodule, hname, ← hserver]
    refine ⟨_, _, rfl, text, htext, hlines.mem_linesOf trait.head_mem_lines ?_, ?_, ?_⟩
    · apply isLine_append _ (by decide) (by decide)
      simp [htrait.feed]
    · have hsignature := hlines.mem_linesOf (Code.TraitDecl.signatureLine_mem_lines hmem)
        hlegible.isLine_signatureLine
      rw [Code.Method.fullName, Code.Method.fullParameters, hdeclared.name,
        hdeclared.optionsMethod, hdeclared.optionsType, hrequired] at hsignature
      simp only [hnone] at hsignature
      exact ⟨type, declared.result, hneeded, hsignature, rfl⟩
    · intro hsome
      refine ⟨declared.optionsBlock, hlines.isInfix ?_ hlegible.isLine_optionsBlock, ?_⟩
      · apply Code.TraitDecl.isInfix_optionsBlock hmem (mt hnone.mp hsome)
      · rw [← hdeclared.optionsType, hlegible.readStruct?_optionsBlock, hoptional, List.map_map]
        rfl

/-- The server calls methods as their traits declare them.  Each endpoint whose operation has a
parameter that carries information and is bound to nothing is reported once, with the first such
parameter, and no other endpoint is.

The rest is read from the emitted texts, if the path of the host crate has no line feeds.  For an
endpoint that is reported, the server has a method that fails with the name of that parameter.  For
any other one, the method runs a statement that fits the trait of the container: it calls the method
that the trait declares on a backend that has this trait, passes the required parameters in the
order of the signature, and builds the struct that stands in front of the trait with all of its
fields. -/
theorem server_calls_fit {graph : TypeGraph} {service : Service} {schema : Schema} {config : Config}
    (hschema : Schema.make graph service = .ok schema) (hjob : schema.job config = job)
    {draft : Draft} {http : HttpService} (hrun : exec job.run .start = (.ok (), draft))
    (hhttp : job.service.http = some http) (hwanted : job.config.http = true)
    (hendpoint : endpoint ∈ (Endpoint.collect job.graph http).1) :
  draft.unboundProblems = (Endpoint.collect job.graph http).1.filterMap job.unboundProblem?
    ∧ (job.unboundProblem? endpoint = none
      ↔ ∀ parameter ∈ job.informative endpoint.operation,
        ∃ bound ∈ endpoint.parameters job.graph, bound.name = parameter.name)
    ∧ ('\n' ∉ job.config.cratePath.toList →
      ∃ server m trait field reading,
        job.HoldsTrait draft endpoint.http.operation.container m trait
        ∧ (∃ text ∈ draft.modules.texts server, HasBackend (linesOf text) field
          ((draft.modules.path server).itemReference (draft.modules.path m) trait.name))
        ∧ draft.ReadsMethod server (job.config.host "server") endpoint reading
        ∧ (∀ first, endpoint.unbound? job.graph (job.informative endpoint.operation) = some first →
          reading.action = .missing first.name)
        ∧ (job.unboundProblem? endpoint = none →
          ∃ statement answer, reading.action = .call statement answer
            ∧ ∃ text ∈ draft.modules.texts m,
              ("pub trait " ++ trait.name ++ " \x7b") ∈ linesOf text
              ∧ job.CallFits draft endpoint server m trait.name (linesOf text) field statement))
  := by
  subst hjob
  have hnone : (schema.job config).unboundProblem? endpoint = none ↔ endpoint.unbound?
      (schema.job config).graph ((schema.job config).informative endpoint.operation) = none := by
    rw [unboundProblem?, Option.map_eq_none_iff]
  refine ⟨run_reports hrun hhttp hwanted, ?_, ?_⟩
  · rw [hnone, Endpoint.unbound?_eq_none_iff]
  intro hcrate
  have hlinked : (schema.job config).graph.Linked := (Schema.linked_of_make hschema).1
  have hsurface := run_holdsSurface hrun hhttp hwanted
  have hconsistent := ((schema.job config).run_logged hlinked hrun).1
  have hsession := session_of_run hrun
  have hoperation := (TypeGraph.operation?_eq_some (Endpoint.operation_mem hendpoint).2).1
  obtain ⟨server, backends, methods, hserver⟩ := hsurface.server (List.ne_nil_of_mem hendpoint)
  obtain ⟨method, hmethod, backend, hbackend, hserves⟩ :=
    mem_zip_of_forall₂ hserver.serves hendpoint
  obtain ⟨m, trait, htrait⟩ :=
    run_holdsTrait hlinked hrun hoperation (hsurface.requested endpoint hendpoint)
  obtain ⟨hmodule, hname⟩ := hserves.toIsBackend.agrees (hserves.container ▸ htrait)
  refine ⟨server, m, trait, backend.field, _, htrait, ?_,
    hserver.readsMethod hsession hmethod hcrate, ?_, ?_⟩
  · rw [hserver.path, ← hmodule, ← hname, ← hserves.bound]
    apply hserver.hasBackend hsession hbackend hserves.toIsBackend
  · intro first hfirst
    rcases serveAction_settled hconsistent.toPlaced hoperation hserves.action with
      ⟨parameter, hparameter, haction⟩ | ⟨hbound, -⟩
    · rw [hfirst] at hparameter
      cases hparameter
      rw [haction]
      rfl
    · rw [hfirst] at hbound
      cases hbound
  · intro hbound
    apply htrait.callFits ⟨rfl, hcrate⟩ hsession hconsistent.splits_valid hserver.path hserves
      hoperation (hnone.mp hbound)

/-- A desk with two operations: one sorts cards, perhaps after a tag, and one lends a card. -/
def deskGraph : TypeGraph := {
  namespaces := [
    { name := "" },
    { name := "Desk"
      parent := some .global
      operations := [
        { name := "sort"
          parameters := [
            { name := "tag", type := ⟨0⟩, optional := true }, { name := "cards", type := ⟨1⟩ }]
          returnType := ⟨2⟩ },
        { name := "lend", parameters := [{ name := "card", type := ⟨0⟩ }], returnType := ⟨2⟩ }] }]
  types := [
    { kind := .record { name := some "Card", owner := some ⟨1⟩ } },
    { kind := .array ⟨0⟩ },
    { kind := .intrinsic .void }] }

/-- The HTTP operations of the desk; the card to lend is not bound. -/
def deskHttp : HttpService := {
  operations := [
    { operation := ⟨.group ⟨1⟩, "sort"⟩, verb := .post, path := "/sort"
      parameters := [⟨"cards", .body, ⟨1⟩, true⟩, ⟨"tag", .query, ⟨0⟩, false⟩] },
    { operation := ⟨.group ⟨1⟩, "lend"⟩, verb := .post, path := "/lend" }] }

/-- The schema of the desk. -/
def deskSchema : Schema := ⟨deskGraph.link.1, { root := ⟨1⟩, http := some deskHttp }⟩

/-- The desk sorts by the method with options, which is passed the cards and given the tag, and the
server does not lend. -/
theorem server_calls_fit_desk :
  ∃ draft, exec (deskSchema.job {}).run .start = (.ok (), draft) ∧ draft.unboundProblems.length = 1
    ∧ (∃ endpoint ∈ (Endpoint.collect deskSchema.graph deskHttp).1,
      (deskSchema.job {}).calledMethod endpoint.operation = "sort_with_options"
      ∧ ((deskSchema.job {}).required endpoint.operation).map (·.name) = ["cards"]
      ∧ ((deskSchema.job {}).optional endpoint.operation).map (·.name) = ["tag"]
      ∧ ∃ server m trait field reading statement answer,
        draft.ReadsMethod server ((deskSchema.job {}).config.host "server") endpoint reading
        ∧ reading.action = .call statement answer
        ∧ ∃ text ∈ draft.modules.texts m,
          (deskSchema.job {}).CallFits draft endpoint server m trait (linesOf text) field statement)
    ∧ ∃ endpoint ∈ (Endpoint.collect deskSchema.graph deskHttp).1,
      endpoint.operation.name = "lend" ∧ ∃ server reading name,
        draft.ReadsMethod server ((deskSchema.job {}).config.host "server") endpoint reading
        ∧ reading.action = .missing name
  := by
  have hschema : Schema.make deskGraph { root := ⟨1⟩, http := some deskHttp } = .ok deskSchema := by
    decide +kernel
  have hrun := exec_eq_of_ok
    (show (exec (deskSchema.job {}).run .start).1 = .ok () by decide +kernel)
  have hcount : (exec (deskSchema.job {}).run .start).2.unboundProblems.length = 1 := by
    decide +kernel
  have hcrate : '\n' ∉ (deskSchema.job {}).config.cratePath.toList := by decide
  generalize (exec (deskSchema.job {}).run .start).2 = draft at hrun hcount
  obtain ⟨sort, hsort, hcalled, hrequired, hoptional, hbound⟩ :
      ∃ endpoint ∈ (Endpoint.collect deskSchema.graph deskHttp).1,
        (deskSchema.job {}).calledMethod endpoint.operation = "sort_with_options"
        ∧ ((deskSchema.job {}).required endpoint.operation).map (·.name) = ["cards"]
        ∧ ((deskSchema.job {}).optional endpoint.operation).map (·.name) = ["tag"]
        ∧ (deskSchema.job {}).unboundProblem? endpoint = none := by
    decide +kernel
  obtain ⟨lend, hlend, hname, hunbound⟩ :
      ∃ endpoint ∈ (Endpoint.collect deskSchema.graph deskHttp).1, endpoint.operation.name = "lend"
        ∧ (endpoint.unbound? deskSchema.graph
          ((deskSchema.job {}).informative endpoint.operation)).isSome = true := by
    decide +kernel
  refine ⟨draft, hrun, hcount, ⟨sort, hsort, hcalled, hrequired, hoptional, ?_⟩, lend, hlend, hname,
    ?_⟩
  · obtain ⟨-, -, htexts⟩ := server_calls_fit hschema rfl hrun rfl rfl hsort
    obtain ⟨server, m, trait, field, reading, -, -, hreads, -, hcalls⟩ := htexts hcrate
    obtain ⟨statement, answer, haction, text, htext, -, hfits⟩ := hcalls hbound
    exact ⟨server, m, trait.name, field, reading, statement, answer, hreads, haction, text, htext,
      hfits⟩
  · obtain ⟨first, hfirst⟩ := Option.isSome_iff_exists.mp hunbound
    obtain ⟨-, -, htexts⟩ := server_calls_fit hschema rfl hrun rfl rfl hlend
    obtain ⟨server, _, _, _, reading, -, -, hreads, hfails, -⟩ := htexts hcrate
    exact ⟨server, reading, first.name, hreads, hfails first hfirst⟩

end Job

end ServiceBindings
