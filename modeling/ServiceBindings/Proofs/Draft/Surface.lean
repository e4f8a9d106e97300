import ServiceBindings.Proofs.Draft.Rendering

/-!
# Growth of the HTTP surface

The HTTP surface is written into modules of its own, which belong to no namespace.  Besides that,
writing it only requests declarations and spells types, so that the draft grows.
-/

namespace ServiceBindings

open Draft

/-! ### Free modules -/

namespace Draft

variable {graph : TypeGraph} {d e : Draft}

/-- A free module stays free. -/
theorem IsFree.change {m : ModuleId} (h : d.IsFree m) (hchange : Change graph d e) :
  e.IsFree m
  := by
  refine ⟨Nat.lt_of_lt_of_le h.exists_module hchange.later.size, h.ne_synthetic, ?_⟩
  cases hchange with
  | openModule hid _ =>
      intro other hother
      rw [moduleOf?_openModule hid] at hother
      split at hother
      case isTrue =>
        cases hother
        apply Nat.lt_irrefl _ h.exists_module
      case isFalse => apply h.not_placed other hother
  | _ => apply h.not_placed

theorem IsFree.growth {m : ModuleId} (h : d.IsFree m) (hgrowth : Growth graph d e) :
  e.IsFree m
  := by
  induction hgrowth with
  | refl => apply h
  | tail _ hchange ih => apply ih.change hchange

/-- A module that is made by itself is free. -/
theorem isFree_addModule (hd : Founded d) (parent : ModuleId) (name : String)
    (inline : Bool) (doc : String) :
  (Drafting.exec (Drafting.addModule parent name inline doc) d).2.IsFree ⟨d.modules.size⟩
  := by
  rw [Drafting.exec_addModule]
  constructor
  · simp
  · intro heq
    have hsize : d.modules.size = ModuleId.synthetic.index := congrArg ModuleId.index heq
    apply Nat.lt_irrefl _ (hsize ▸ hd.synthetic_lt)
  · intro id hid
    apply Nat.lt_irrefl _ (hd.place_lt id _ hid)

end Draft

/-! ### Steps that write free modules -/

namespace Drafting

variable {α β : Type} {graph : TypeGraph}

/-- Whether a step makes a founded draft grow if certain modules are free there. -/
def Extends (graph : TypeGraph) (free : List ModuleId) (x : Drafting α) : Prop :=
  ∀ d, Founded d → (∀ m ∈ free, d.IsFree m) → Growth graph d (exec x d).2

namespace Extends

/-- A founded draft grows to what such a step leaves. -/
theorem growth {x : Drafting α} (h : Extends graph [] x) {d e : Draft}
    {outcome : Except CompileError α} (hd : Founded d) (hexec : exec x d = (outcome, e)) :
  Growth graph d e
  := by
  have hgrows := h d hd fun _ hm => nomatch hm
  rw [hexec] at hgrows
  apply hgrows

variable {free : List ModuleId}

theorem of_settles {x : Drafting α} (h : Settles graph x) : Extends graph free x :=
  fun d _ _ => h.grows d

theorem of_steady {x : Drafting α} (h : Steady graph x) : Extends graph free x :=
  of_settles h.toSettles

theorem report (diagnostic : Diagnostic) : Extends graph free (report diagnostic) :=
  of_settles (Settles.report diagnostic)

theorem pathOf (m : ModuleId) : Extends graph free (pathOf m) := fun _ _ _ => .refl

theorem write {m : ModuleId} (hm : m ∈ free) (lines : List String) :
  Extends graph free (write m lines) :=
  fun d _ hfree => .single (.write d lines (hfree m hm))

theorem bind {x : Drafting α} {f : α → Drafting β} (hx : Extends graph free x)
    (hf : ∀ a, Extends graph free (f a)) :
  Extends graph free (x >>= f)
  := by
  intro d hd hfree
  apply exec_bind_rel Relation.ReflTransGen.trans (hx d hd hfree)
  intro a e hexec
  have hgrowth := hx d hd hfree
  rw [hexec] at hgrowth
  apply hf a e (hgrowth.founded hd)
  intro m hm
  apply (hfree m hm).growth hgrowth

/-- What follows may write into a module that was made. -/
theorem addModule_bind {f : ModuleId → Drafting β} (parent : ModuleId) (name : String)
    (inline : Bool) (doc : String) (hf : ∀ m, Extends graph (m :: free) (f m)) :
  Extends graph free (addModule parent name inline doc >>= f)
  := by
  intro d hd hfree
  have hchange : Change graph d _ := .addModule d parent name inline doc
  apply exec_bind_rel Relation.ReflTransGen.trans (Relation.ReflTransGen.single hchange)
  intro m e hexec
  have hm := isFree_addModule hd parent name inline doc
  rw [hexec] at hchange hm
  rw [exec_addModule] at hexec
  cases hexec
  apply hf _ _ (Growth.founded (.single hchange) hd)
  intro other hother
  rcases List.mem_cons.mp hother with rfl | hother
  · apply hm
  · apply (hfree other hother).change hchange

theorem mapM {f : α → Drafting β} {items : List α} (hf : ∀ a ∈ items, Extends graph free (f a)) :
  Extends graph free (items.mapM f)
  := by
  induction items with
  | nil =>
      rw [List.mapM_nil]
      apply of_steady (Steady.pure _)
  | cons item items ih =>
      rw [List.mapM_cons]
      apply bind (hf item List.mem_cons_self)
      intro b
      apply bind (ih fun a ha => hf a (List.mem_cons_of_mem _ ha))
      intro bs
      apply of_steady (Steady.pure _)

theorem forM {f : α → Drafting Unit} {items : List α}
    (hf : ∀ a ∈ items, Extends graph free (f a)) :
  Extends graph free (items.forM f)
  := by
  induction items with
  | nil => apply of_steady (Steady.pure _)
  | cons item items ih =>
      change Extends graph free (f item >>= fun _ => items.forM f)
      apply bind (hf item List.mem_cons_self)
      intro _
      apply ih fun a ha => hf a (List.mem_cons_of_mem _ ha)

end Extends

end Drafting

/-! ### Endpoints -/

/-- A container that has an operation is declared. -/
theorem TypeGraph.declares_container {graph : TypeGraph} {container : Container}
    {operation : Operation} (h : operation ∈ graph.operations container) :
  graph.Declares container.declaration
  := by
  cases container with
  | group id =>
      rw [operations] at h
      cases hns : graph.namespace? id with
      | none =>
          rw [hns] at h
          cases h
      | some ns => apply (List.getElem?_eq_some_iff.mp hns).1
  | interface id =>
      rw [operations] at h
      split at h
      case h_1 hkind => apply TypeGraph.declares_of_kind? hkind
      case h_2 => cases h

/-- The operation of a reference is one of its container, under that name. -/
theorem TypeGraph.operation?_eq_some {graph : TypeGraph} {reference : OperationRef}
    {operation : Operation} (h : graph.operation? reference = some operation) :
  operation ∈ graph.operations reference.container ∧ operation.name = reference.name
  := by
  constructor
  · apply List.mem_of_find?_eq_some h
  · simpa using List.find?_some h

/-- The endpoints are the HTTP operations whose operation exists, with that operation. -/
theorem Endpoint.map_collect (graph : TypeGraph) (http : HttpService) :
  (collect graph http).1.map (fun endpoint => (endpoint.http, endpoint.operation))
    = http.operations.filterMap fun http =>
        (graph.operation? http.operation).map fun operation => (http, operation)
  := by
  rw [collect]
  generalize ([] : List String) = taken
  induction http.operations generalizing taken with
  | nil => rfl
  | cons http rest ih =>
      rw [collectFrom]
      split
      case h_1 hnone =>
        rw [List.filterMap_cons_none (by rw [hnone]; rfl)]
        apply ih
      case h_2 operation hsome =>
        rw [List.filterMap_cons_some (by rw [hsome]; rfl), List.map_cons]
        congr 1
        apply ih

/-- An endpoint exposes an operation of its container. -/
theorem Endpoint.operation_mem {graph : TypeGraph} {http : HttpService} {endpoint : Endpoint}
    (h : endpoint ∈ (collect graph http).1) :
  endpoint.http ∈ http.operations
    ∧ graph.operation? endpoint.http.operation = some endpoint.operation
  := by
  have hmem := List.mem_map_of_mem (f := fun endpoint => (endpoint.http, endpoint.operation)) h
  rw [map_collect, List.mem_filterMap] at hmem
  obtain ⟨found, hfound, heq⟩ := hmem
  obtain ⟨operation, hoperation, heq⟩ := Option.map_eq_some_iff.mp heq
  obtain ⟨rfl, rfl⟩ := Prod.mk.inj heq
  use hfound

/-- An HTTP operation whose operation exists has an endpoint. -/
theorem Endpoint.exists_of_mem {graph : TypeGraph} {http : HttpService} {exposed : HttpOperation}
    {operation : Operation} (hmem : exposed ∈ http.operations)
    (hoperation : graph.operation? exposed.operation = some operation) :
  ∃ endpoint ∈ (collect graph http).1, endpoint.http = exposed
  := by
  have hpair : (exposed, operation) ∈ (collect graph http).1.map
      fun endpoint => (endpoint.http, endpoint.operation) := by
    rw [map_collect, List.mem_filterMap]
    use exposed, hmem
    rw [hoperation]
    rfl
  obtain ⟨endpoint, hendpoint, heq⟩ := List.mem_map.mp hpair
  exact ⟨endpoint, hendpoint, congrArg Prod.fst heq⟩

namespace Job

open Drafting

variable (job : Job) {free : List ModuleId}

theorem parameterLines_steady (endpoint : Endpoint) (path : ModulePath)
    (parameter : HttpParameter) :
  Steady job.graph (job.parameterLines endpoint path parameter) :=
  (job.spell_steady _ _ _ _ _).bind_pure _

theorem writeEndpoint_extends (parent : ModuleId) {endpoint : Endpoint}
    (h : endpoint.operation ∈ job.graph.operations endpoint.http.operation.container) :
  Extends job.graph free (job.writeEndpoint parent endpoint)
  := by
  apply Extends.addModule_bind
  intro m
  have hm : m ∈ m :: free := List.mem_cons_self
  apply (Extends.pathOf m).bind
  intro path
  apply (Extends.of_steady (job.splitReturn_steady h)).bind
  intro split
  apply (Extends.of_steady (job.spellSide_steady _ _)).bind
  intro response
  apply (Extends.of_steady (job.spellSide_steady _ _)).bind
  intro error
  apply (Extends.write hm _).bind
  intro _
  apply (Extends.mapM fun parameter _ =>
    Extends.of_steady (job.parameterLines_steady endpoint path parameter)).bind
  intro parameters
  apply (Extends.write hm _).bind
  intro _
  apply (Extends.write hm _).bind
  intro _
  apply (Extends.write hm _).bind
  intro _
  split
  case h_1 => apply Extends.report
  case h_2 => apply Extends.of_steady (Steady.pure _)

theorem writeEndpoints_extends (parent : ModuleId) {endpoints : List Endpoint}
    (h : ∀ endpoint ∈ endpoints,
      endpoint.operation ∈ job.graph.operations endpoint.http.operation.container) :
  Extends job.graph free (job.writeEndpoints parent endpoints)
  := by
  apply Extends.addModule_bind
  intro m
  apply (Extends.write List.mem_cons_self _).bind
  intro _
  apply Extends.forM
  intro endpoint hendpoint
  apply job.writeEndpoint_extends m (h endpoint hendpoint)

theorem writeCredential_extends (parent : ModuleId) (schemes : List AuthScheme) :
  Extends job.graph free (writeCredential parent schemes)
  := by
  unfold writeCredential
  split
  case h_1 => apply Extends.of_steady (Steady.pure _)
  case h_2 => apply Extends.report
  case h_3 =>
    apply Extends.addModule_bind
    intro m
    apply Extends.write List.mem_cons_self

theorem writeRouter_extends (parent : ModuleId) (endpoints : List Endpoint) :
  Extends job.graph free (writeRouter parent endpoints)
  := by
  apply Extends.addModule_bind
  intro m
  apply (Extends.forM fun problem _ => Extends.report problem).bind
  intro _
  apply (Extends.write List.mem_cons_self _).bind
  intro _
  apply (Extends.write List.mem_cons_self _).bind
  intro _
  apply Extends.write List.mem_cons_self

/-! ### The server -/

theorem traitName_steady (container : Container) : Steady job.graph (job.traitName container) := by
  cases container with
  | group id => apply Steady.pure
  | interface id => apply declarationName_steady

theorem backends_extends (path : ModulePath) (scope : NameScope) (containers : List Container) :
  Extends job.graph free (job.backends path scope containers)
  := by
  induction containers generalizing scope with
  | nil => apply Extends.of_steady (Steady.pure _)
  | cons container rest ih =>
      apply (Extends.of_steady (job.traitName_steady container)).bind
      intro trait
      apply (Extends.of_steady (job.placeOfContainer_steady container)).bind
      intro m
      apply (Extends.pathOf m).bind
      intro module
      apply (ih _).bind
      intro backends
      apply Extends.of_steady (Steady.pure _)

theorem callArgument_steady (host : String) (backend : Backend) (operation : String)
    (parameter : Field) (bound : HttpParameter) :
  Steady job.graph (job.callArgument host backend operation parameter bound)
  := by
  unfold callArgument
  dsimp only
  split
  case isTrue => apply Steady.pure
  case isFalse => apply (job.spell_steady _ _ _ _ _).bind_pure

theorem callArguments_settles (host : String) (backend : Backend) (endpoint : Endpoint)
    (parameters : List Field) :
  Settles job.graph (job.callArguments host backend endpoint parameters)
  := by
  induction parameters with
  | nil => apply Settles.pure
  | cons parameter rest ih =>
      unfold callArguments
      split
      case h_1 => apply (Settles.report _).bind_pure
      case h_2 =>
        apply (job.callArgument_steady _ _ _ _ _).toSettles.bind
        intro argument
        apply ih.bind_pure

theorem serveAction_settles (host : String) (path : ModulePath) (backend : Backend)
    {endpoint : Endpoint}
    (h : endpoint.operation ∈ job.graph.operations endpoint.http.operation.container) :
  Settles job.graph (job.serveAction host path backend endpoint)
  := by
  apply (job.callArguments_settles _ _ _ _).bind
  intro arguments
  cases arguments with
  | error parameter => apply Settles.pure
  | ok arguments => apply (job.splitReturn_steady h).toSettles.bind_pure

theorem serveMethod_settles (host : String) (path endpoints : ModulePath) (backend : Backend)
    {endpoint : Endpoint}
    (h : endpoint.operation ∈ job.graph.operations endpoint.http.operation.container) :
  Settles job.graph (job.serveMethod host path endpoints (endpoint, backend)) :=
  (job.serveAction_settles host path backend h).bind_pure _

theorem writeServer_extends (parent : ModuleId) {endpoints : List Endpoint}
    (h : ∀ endpoint ∈ endpoints,
      endpoint.operation ∈ job.graph.operations endpoint.http.operation.container) :
  Extends job.graph free (job.writeServer parent endpoints)
  := by
  unfold writeServer
  split
  case isTrue => apply Extends.of_steady (Steady.pure _)
  case isFalse =>
    apply Extends.addModule_bind
    intro m
    apply (Extends.pathOf m).bind
    intro path
    apply (Extends.pathOf parent).bind
    intro surface
    apply (job.backends_extends _ _ _).bind
    intro backends
    apply (Extends.mapM _).bind
    · intro methods
      apply Extends.write List.mem_cons_self
    · rintro ⟨endpoint, backend⟩ hserved
      obtain ⟨found, hfound, heq⟩ := List.mem_filterMap.mp hserved
      obtain ⟨_, -, heq⟩ := Option.map_eq_some_iff.mp heq
      obtain ⟨rfl, rfl⟩ := Prod.mk.inj heq
      apply Extends.of_settles
      apply job.serveMethod_settles _ _ _ _ (h _ hfound)

/-- Writing the HTTP surface makes the draft grow. -/
theorem writeSurface_extends (http : HttpService) :
  Extends job.graph free (job.writeSurface http)
  := by
  have hoperation (endpoint : Endpoint) (h : endpoint ∈ (Endpoint.collect job.graph http).1) :
      endpoint.operation ∈ job.graph.operations endpoint.http.operation.container :=
    (TypeGraph.operation?_eq_some (Endpoint.operation_mem h).2).1
  apply Extends.addModule_bind
  intro m
  apply (Extends.forM fun problem _ => Extends.report problem).bind
  intro _
  apply (Extends.forM fun endpoint h => Extends.of_steady
    (job.request_steady (TypeGraph.declares_container (hoperation endpoint h)))).bind
  intro _
  apply (job.writeCredential_extends m _).bind
  intro _
  apply (job.writeRouter_extends m _).bind
  intro _
  apply (job.writeEndpoints_extends m hoperation).bind
  intro _
  apply job.writeServer_extends m hoperation

end Job

end ServiceBindings
