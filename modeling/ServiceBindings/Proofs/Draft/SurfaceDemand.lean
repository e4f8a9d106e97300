import ServiceBindings.Proofs.Draft.Demand

/-!
# What the HTTP surface asks for

The HTTP surface asks for the containers of its endpoints and for the types of their parameters.
Whatever else it asks for, the operations of the endpoints ask for as well.
-/

namespace ServiceBindings

open Draft

namespace TypeGraph

variable (graph : TypeGraph)

/-- What the parameters of an endpoint are spelled as. -/
def AsksParameter (endpoint : Endpoint) (target : Target) : Prop :=
  ∃ parameter ∈ endpoint.http.parameters, graph.Spells parameter.type target

/-- What an endpoint has to ask for. -/
def EndpointNeeds (endpoint : Endpoint) (target : Target) : Prop :=
  target = .declaration endpoint.http.operation.container.declaration
    ∨ graph.AsksParameter endpoint target

/-- What an endpoint can ask for. -/
def EndpointAsks (endpoint : Endpoint) (target : Target) : Prop :=
  graph.EndpointNeeds endpoint target ∨ graph.OperationAsks endpoint.operation target

end TypeGraph

namespace Job

open Drafting

variable (job : Job)

/-! ### Endpoints -/

/-- The module of an endpoint asks for its parameters and for the sides of its operation. -/
theorem writeEndpoint_requests (hdistinct : job.graph.DistinctOperations) (parent : ModuleId)
    {endpoint : Endpoint}
    (h : endpoint.operation ∈ job.graph.operations endpoint.http.operation.container) :
  Requests job.graph
    (fun target => job.graph.AsksSides endpoint.operation target
      ∨ job.graph.AsksParameter endpoint target)
    (fun target => job.graph.AsksSides endpoint.operation target
      ∨ job.graph.AsksParameter endpoint target)
    (job.writeEndpoint parent endpoint)
  := by
  apply (Requests.addModule _ _ _ _).after
  intro m
  apply (Requests.pathOf m).after
  intro path
  apply job.sides_requests hdistinct h path
  intro split response error
  apply (Requests.write m _).after
  intro _
  apply Requests.congr
  · apply Requests.before
    · apply Requests.mapM
      intro parameter _
      apply (job.spell_requests parameter.type _ _ _ _).bind_pure
    · intro parameters
      apply (Requests.write m _).after
      intro _
      apply (Requests.write m _).after
      intro _
      apply (Requests.write m _).after
      intro _
      split
      case h_1 => apply Requests.report
      case h_2 => apply Requests.pure
  · intro target
    symm
    apply TypeGraph.exists_spells_filter

theorem writeEndpoints_requests (hdistinct : job.graph.DistinctOperations) (parent : ModuleId)
    {endpoints : List Endpoint}
    (h : ∀ endpoint ∈ endpoints,
      endpoint.operation ∈ job.graph.operations endpoint.http.operation.container) :
  Requests job.graph
    (fun target => ∃ endpoint ∈ endpoints, job.graph.AsksSides endpoint.operation target
      ∨ job.graph.AsksParameter endpoint target)
    (fun target => ∃ endpoint ∈ endpoints, job.graph.AsksSides endpoint.operation target
      ∨ job.graph.AsksParameter endpoint target)
    (job.writeEndpoints parent endpoints)
  := by
  apply (Requests.addModule _ _ _ _).after
  intro m
  apply (Requests.write m _).after
  intro _
  apply Requests.forM
  intro endpoint hendpoint
  apply job.writeEndpoint_requests hdistinct m (h endpoint hendpoint)

/-- Problems are reported without any request. -/
theorem reports_requests (problems : List Diagnostic) :
  Requests job.graph nothing nothing (problems.forM report)
  := by
  apply Requests.congr
  · apply Requests.forM
    intro problem _
    apply Requests.report problem
  · simp [nothing]

theorem writeCredential_requests (parent : ModuleId) (schemes : List AuthScheme) :
  Requests job.graph nothing nothing (writeCredential parent schemes)
  := by
  unfold writeCredential
  split
  case h_1 => apply Requests.pure
  case h_2 => apply Requests.report
  case h_3 =>
    apply (Requests.addModule _ _ _ _).after
    intro m
    apply Requests.write

theorem writeRouter_requests (parent : ModuleId) (endpoints : List Endpoint) :
  Requests job.graph nothing nothing (writeRouter parent endpoints)
  := by
  apply (Requests.addModule _ _ _ _).after
  intro m
  apply (job.reports_requests _).after
  intro _
  apply (Requests.write m _).after
  intro _
  apply (Requests.write m _).after
  intro _
  apply Requests.write

/-! ### The server -/

theorem traitName_requests (container : Container) :
  Requests job.graph nothing nothing (job.traitName container)
  := by
  cases container with
  | group id => apply Requests.pure
  | interface id => apply declarationName_requests

theorem backends_requests (path : ModulePath) (scope : NameScope) (containers : List Container) :
  Requests job.graph nothing nothing (job.backends path scope containers)
  := by
  induction containers generalizing scope with
  | nil => apply Requests.pure
  | cons container rest ih =>
      apply (job.traitName_requests container).after
      intro trait
      apply (job.placeOfContainer_requests container).after
      intro m
      apply (Requests.pathOf m).after
      intro module
      apply (ih _).bind_pure

/-- An argument that is required is spelled. -/
theorem callArgument_requests (host : String) (backend : Backend) (operation : String)
    (parameter : Field) (bound : HttpParameter) :
  Requests job.graph nothing (job.graph.Spells parameter.type)
    (job.callArgument host backend operation parameter bound)
  := by
  unfold callArgument
  dsimp only
  split
  case isTrue => apply (Requests.pure _).of_nothing
  case isFalse => apply ((job.spell_requests parameter.type _ _ _ _).bind_pure _).optional

theorem callArguments_requests (host : String) (backend : Backend) (endpoint : Endpoint)
    (parameters : List Field) :
  Requests job.graph nothing
    (fun target => ∃ parameter ∈ parameters, job.graph.Spells parameter.type target)
    (job.callArguments host backend endpoint parameters)
  := by
  induction parameters with
  | nil => apply (Requests.pure _).of_nothing
  | cons parameter rest ih =>
      unfold callArguments
      split
      case h_1 => apply ((Requests.report _).bind_pure _).of_nothing
      case h_2 bound _ =>
        apply Requests.optional
        apply Requests.weaken
        · apply (job.callArgument_requests host backend _ parameter bound).bind
          intro argument
          apply ih.bind_pure
        · intro target htarget
          apply htarget
        · simp

/-- A method of the server asks for nothing that its operation does not ask for. -/
theorem serveMethod_requests (hdistinct : job.graph.DistinctOperations) (host : String)
    (path endpoints : ModulePath) (backend : Backend) {endpoint : Endpoint}
    (h : endpoint.operation ∈ job.graph.operations endpoint.http.operation.container) :
  Requests job.graph nothing (job.graph.OperationAsks endpoint.operation)
    (job.serveMethod host path endpoints (endpoint, backend))
  := by
  have hsplit : Requests job.graph nothing (job.graph.AsksSubset endpoint.operation)
      (job.splitReturn endpoint.http.operation.container endpoint.operation) :=
    (splitReturn_requests hdistinct h).optional
  apply Requests.bind_pure
  apply Requests.optional
  apply Requests.weaken
  · apply (job.callArguments_requests host backend endpoint
      (job.informative endpoint.operation)).bind
    intro arguments
    cases arguments with
    | ok arguments => apply hsplit.bind_pure
    | error parameter => apply (Requests.pure _).of_nothing
  · intro target htarget
    apply htarget
  · intro target htarget
    rw [TypeGraph.operationAsks_iff]
    rcases htarget with ⟨parameter, hparameter, hspells⟩ | hsubset
    · apply Or.inr ⟨parameter, (List.mem_filter.mp hparameter).1, hspells⟩
    · apply Or.inl (Or.inl hsubset)

/-- The server asks for nothing that the operations of its endpoints do not ask for. -/
theorem writeServer_requests (hdistinct : job.graph.DistinctOperations) (parent : ModuleId)
    {endpoints : List Endpoint}
    (h : ∀ endpoint ∈ endpoints,
      endpoint.operation ∈ job.graph.operations endpoint.http.operation.container) :
  Requests job.graph nothing
    (fun target => ∃ endpoint ∈ endpoints, job.graph.OperationAsks endpoint.operation target)
    (job.writeServer parent endpoints)
  := by
  unfold writeServer
  split
  case isTrue => apply (Requests.pure _).of_nothing
  case isFalse =>
    apply (Requests.addModule _ _ _ _).after
    intro m
    apply (Requests.pathOf m).after
    intro path
    apply (Requests.pathOf parent).after
    intro surface
    apply (job.backends_requests _ _ _).after
    intro backends
    -- The endpoints that are served are some of all endpoints.
    have hserved {served : Endpoint × Backend} (hmem : served ∈ endpoints.filterMap fun endpoint =>
        (backends.find? fun backend =>
          backend.container = endpoint.http.operation.container).map
            fun backend => (endpoint, backend)) : served.1 ∈ endpoints := by
      obtain ⟨endpoint, hendpoint, heq⟩ := List.mem_filterMap.mp hmem
      obtain ⟨backend, -, rfl⟩ := Option.map_eq_some_iff.mp heq
      apply hendpoint
    apply Requests.optional
    apply Requests.weaken
    · apply Requests.before
      · apply Requests.mapM
        intro served hmem
        apply job.serveMethod_requests hdistinct _ path _ served.2 (h served.1 (hserved hmem))
      · intro methods
        apply Requests.write
    · intro target htarget
      apply htarget
    · rintro target ⟨served, hmem, hasks⟩
      use served.1, hserved hmem

/-- The HTTP surface asks for the containers and the parameters of its endpoints, and besides only
for what their operations ask for. -/
theorem writeSurface_requests (hdistinct : job.graph.DistinctOperations) (http : HttpService) :
  Requests job.graph
    (fun target => ∃ endpoint ∈ (Endpoint.collect job.graph http).1,
      job.graph.EndpointNeeds endpoint target)
    (fun target => ∃ endpoint ∈ (Endpoint.collect job.graph http).1,
      job.graph.EndpointAsks endpoint target)
    (job.writeSurface http)
  := by
  have hoperation (endpoint : Endpoint) (h : endpoint ∈ (Endpoint.collect job.graph http).1) :
      endpoint.operation ∈ job.graph.operations endpoint.http.operation.container :=
    (TypeGraph.operation?_eq_some (Endpoint.operation_mem h).2).1
  apply (Requests.addModule _ _ _ _).after
  intro m
  apply (job.reports_requests _).after
  intro _
  apply Requests.weaken
  · apply Requests.bind
    · apply Requests.forM
      intro endpoint hendpoint
      apply job.request_requests (TypeGraph.declares_container (hoperation endpoint hendpoint))
    · intro _
      apply (job.writeCredential_requests m _).after
      intro _
      apply (job.writeRouter_requests m _).after
      intro _
      apply (job.writeEndpoints_requests hdistinct m hoperation).bind
      intro _
      apply job.writeServer_requests hdistinct m hoperation
  · rintro target ⟨endpoint, hendpoint, hcontainer | hparameter⟩
    · apply Or.inl ⟨endpoint, hendpoint, hcontainer⟩
    · apply Or.inr (Or.inl ⟨endpoint, hendpoint, Or.inr hparameter⟩)
  · rintro target (⟨endpoint, hendpoint, hcontainer⟩
      | ⟨endpoint, hendpoint, hsides | hparameter⟩ | ⟨endpoint, hendpoint, hasks⟩)
    · use endpoint, hendpoint, Or.inl (Or.inl hcontainer)
    · use endpoint, hendpoint, Or.inr (TypeGraph.operationAsks_iff.mpr (Or.inl hsides))
    · use endpoint, hendpoint, Or.inl (Or.inr hparameter)
    · use endpoint, hendpoint, Or.inr hasks

end Job

end ServiceBindings
