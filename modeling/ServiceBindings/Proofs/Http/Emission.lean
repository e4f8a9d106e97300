import ServiceBindings.Proofs.Draft.Emission
import ServiceBindings.Proofs.Draft.Session
import ServiceBindings.Proofs.Text.Lines

/-!
# The text of the HTTP surface

What a run that succeeds has written of the HTTP surface.  Each endpoint has a module with the
struct of its parameters, with the classification of its statuses and with its client functions, for
the types that the sides of its operation are spelled as.  The server has a method for each
endpoint, which does what is settled for it, and delegates to the trait of each container.  Later
moves of the session keep all of that.
-/

namespace ServiceBindings

open Draft Drafting

/-! ### Texts -/

/-- Whether one of the texts of a module is made of lines. -/
def Draft.HoldsLines (d : Draft) (m : ModuleId) (lines : List String) : Prop :=
  ∃ text ∈ d.modules.texts m, Text.IsTextOf text lines

theorem Draft.HoldsLines.moves {graph : TypeGraph} {d e : Draft} {m : ModuleId}
    {lines : List String} (h : d.HoldsLines m lines) (hmoves : Moves graph d e) :
  e.HoldsLines m lines
  := by
  obtain ⟨text, htext, hlines⟩ := h
  exact ⟨text, hmoves.mem_texts htext, hlines⟩

/-- What is written into a module is one of its texts. -/
theorem Draft.holdsLines_of_write {d e : Draft} {m : ModuleId} {lines : List String}
    (hm : m.index < d.modules.size) (h : exec (write m lines) d = (.ok (), e)) :
  e.HoldsLines m lines
  := by
  rw [exec_write] at h
  cases h
  refine ⟨Text.unlines lines, ?_, Text.isTextOf_unlines lines⟩
  rw [ModuleTree.texts_appendText_self _ _ hm]
  apply List.mem_append_right _ (List.mem_singleton_self _)

/-! ### Containers -/

namespace Job

variable {job : Job} {d e : Draft}

/-- The module of a container is that of the namespace that its trait belongs to. -/
theorem placeOfContainer_eq_ok {container : Container} {m : ModuleId}
    (hglobal : d.moduleOf? .global = some .global)
    (h : exec (job.placeOfContainer container) d = (.ok m, e)) :
  ∃ id, container.declaration.owner? job.graph = some id ∧ e.moduleOf? id = some m
  := by
  cases container with
  | group id => exact ⟨id, rfl, job.place_eq_ok hglobal h⟩
  | interface id => apply job.placeOf_eq_ok hglobal h

/-- Whether a backend of a server at `path` stands for its container: it names the trait of the
container and the module that the trait is written into. -/
structure IsBackend (job : Job) (d : Draft) (path : ModulePath) (backend : Backend) : Prop where
  traitName : Settled (job.traitName backend.container) d backend.traitName
  module : ∃ id m, backend.container.declaration.owner? job.graph = some id
    ∧ d.moduleOf? id = some m ∧ d.modules.path m = backend.module
  typeParameter : ∃ scope : NameScope,
    backend.typeParameter = scope.nameFor (Identifier.dropRaw backend.traitName)
  field : backend.field = Identifier.valueName backend.typeParameter
  bound : backend.bound = path.itemReference backend.module backend.traitName

theorem IsBackend.later {path : ModulePath} {backend : Backend} (h : job.IsBackend d path backend)
    (hd : Placed d) (hlater : Later d e) :
  job.IsBackend e path backend
  := by
  obtain ⟨id, m, howner, hplace, hpath⟩ := h.module
  refine ⟨h.traitName.later hlater, ⟨id, m, howner, hlater.place id m hplace, ?_⟩, h.typeParameter,
    h.field, h.bound⟩
  rw [hlater.path m (hd.place_lt id m hplace), hpath]

/-- There is a backend for each container. -/
theorem container_backends {path : ModulePath} {scope : NameScope} {containers : List Container}
    {backends : List Backend}
    (h : exec (job.backends path scope containers) d = (.ok backends, e)) :
  backends.map (·.container) = containers
  := by
  induction containers generalizing scope backends d with
  | nil =>
      cases h
      rfl
  | cons container rest ih =>
      obtain ⟨trait, d₁, -, h⟩ := exec_bind_eq_ok.mp h
      obtain ⟨m, d₂, -, h⟩ := exec_bind_eq_ok.mp h
      rw [exec_bind_of_ok (exec_pathOf m d₂)] at h
      generalize scope.assign (Identifier.dropRaw trait) = assigned at h
      obtain ⟨others, d₃, hothers, hreturn⟩ := exec_bind_eq_ok.mp h
      cases hreturn
      rw [List.map_cons, ih hothers]

/-- The backends of a server stand for their containers. -/
theorem backends_eq_ok {path : ModulePath} {scope : NameScope} {containers : List Container}
    {backends : List Backend} (hd : Placed d)
    (h : exec (job.backends path scope containers) d = (.ok backends, e)) :
  ∀ backend ∈ backends, job.IsBackend e path backend
  := by
  have hmoves := follows_moves job.graph
  induction containers generalizing scope backends d with
  | nil =>
      cases h
      apply List.forall_mem_nil
  | cons container rest ih =>
      have htraits := job.traitName_steady container
      have hplaces := job.placeOfContainer_steady container
      obtain ⟨trait, d₁, htrait, hmoves₁, h⟩ := (hmoves.steady htraits).exec_bind h
      obtain ⟨m, d₂, hplace, hmoves₂, h⟩ := (hmoves.steady hplaces).exec_bind h
      rw [exec_bind_of_ok (exec_pathOf m d₂)] at h
      generalize hassigned : scope.assign (Identifier.dropRaw trait) = assigned at h
      obtain ⟨others, d₃, hothers, hmoves₃, hreturn⟩ := (backends_stays hmoves _ _ _).exec_bind h
      cases hreturn
      have hd₁ := hmoves₁.placed hd
      have hd₂ := hmoves₂.placed hd₁
      obtain ⟨id, howner, hid⟩ := placeOfContainer_eq_ok hd₁.global hplace
      intro backend hbackend
      rcases List.mem_cons.mp hbackend with rfl | hbackend
      · apply IsBackend.later _ hd₂ hmoves₃.later
        constructor
        case traitName => apply (htraits.settled hd htrait).later hmoves₂.later
        case module => use id, m, howner, hid
        case typeParameter => exact ⟨scope, congrArg Prod.fst hassigned.symm⟩
        case field => dsimp only
        case bound => dsimp only
      · apply ih hd₂ hothers backend hbackend

/-! ### Clients -/

/-- Whether a module holds the client of an endpoint, whose sides are spelled `response` and
`error`. -/
structure HoldsClient (job : Job) (d : Draft) (m : ModuleId) (endpoint : Endpoint)
    (split : ReturnSplit) (response error : String) : Prop where
  exists_module : m.index < d.modules.size
  path : d.modules.path m = ⟨["http", "operations", endpoint.moduleName]⟩
  known : d.splits.lookup ⟨endpoint.http.operation.container, endpoint.operation.name⟩ = some split
  success : Settled (job.spellSide split.success (d.modules.path m)) d response
  failure : Settled (job.spellSide split.error (d.modules.path m)) d error
  parameters : ∃ groups, List.Forall₂ (fun parameter lines =>
      Settled (job.parameterLines endpoint (d.modules.path m) parameter) d lines)
        (endpoint.parameters job.graph) groups
    ∧ d.HoldsLines m (Code.derives ["Debug", "Clone"]
      :: Code.blockOrBraces "pub struct Parameters" groups.flatten)
  classify : d.HoldsLines m (classifyLines (statusArms (endpoint.statuses job.graph)))
  client : d.HoldsLines m (endpoint.clientLines job.graph job.config response error)

theorem HoldsClient.moves {m : ModuleId} {endpoint : Endpoint} {split : ReturnSplit}
    {response error : String} (h : job.HoldsClient d m endpoint split response error)
    (hmoves : Moves job.graph d e) :
  job.HoldsClient e m endpoint split response error
  := by
  have hpath : e.modules.path m = d.modules.path m := hmoves.later.path m h.exists_module
  constructor
  case exists_module => apply Nat.lt_of_lt_of_le h.exists_module hmoves.later.size
  case path => rw [hpath, h.path]
  case known => apply hmoves.later.split _ _ h.known
  case success =>
    rw [hpath]
    apply h.success.later hmoves.later
  case failure =>
    rw [hpath]
    apply h.failure.later hmoves.later
  case parameters =>
    obtain ⟨groups, hgroups, hstruct⟩ := h.parameters
    rw [hpath]
    exact ⟨groups, hgroups.imp fun _ _ hlines => hlines.later hmoves.later, hstruct.moves hmoves⟩
  case classify => apply h.classify.moves hmoves
  case client => apply h.client.moves hmoves

/-- A module that is made stands below its parent. -/
theorem addModule_eq_ok {parent m : ModuleId} {name : String} {inline : Bool} {doc : String}
    (h : exec (addModule parent name inline doc) d = (.ok m, e)) :
  m.index < e.modules.size ∧ e.modules.path m = (d.modules.path parent).enter [name]
  := by
  rw [exec_addModule] at h
  cases h
  constructor
  · simp
  · simp [ModuleTree.path_addChild_self]

/-- The steps of writing an endpoint. -/
theorem writeEndpoint_steps {parent : ModuleId} {endpoint : Endpoint}
    (h : exec (job.writeEndpoint parent endpoint) d = (.ok (), e)) :
  ∃ m d₁ split d₃ response d₄ error d₅ d₆ parameters d₇ d₈ d₉ d₁₀,
    exec (addModule parent endpoint.moduleName true (endpointDoc endpoint)) d = (.ok m, d₁)
    ∧ exec (job.splitReturn endpoint.http.operation.container endpoint.operation) d₁
      = (.ok split, d₃)
    ∧ exec (job.spellSide split.success (d₁.modules.path m)) d₃ = (.ok response, d₄)
    ∧ exec (job.spellSide split.error (d₁.modules.path m)) d₄ = (.ok error, d₅)
    ∧ Moves job.graph d₅ d₆
    ∧ exec ((endpoint.parameters job.graph).mapM
      (job.parameterLines endpoint (d₁.modules.path m))) d₆ = (.ok parameters, d₇)
    ∧ exec (write m (Code.derives ["Debug", "Clone"]
      :: Code.blockOrBraces "pub struct Parameters" parameters.flatten)) d₇ = (.ok (), d₈)
    ∧ exec (write m (classifyLines (statusArms (endpoint.statuses job.graph)))) d₈ = (.ok (), d₉)
    ∧ exec (write m (endpoint.clientLines job.graph job.config response error)) d₉ = (.ok (), d₁₀)
    ∧ Moves job.graph d₁₀ e
  := by
  have hmoves := follows_moves job.graph
  obtain ⟨m, d₁, hmodule, h⟩ := exec_bind_eq_ok.mp h
  rw [exec_bind_of_ok (exec_pathOf m d₁)] at h
  obtain ⟨split, d₃, hsplit, h⟩ := exec_bind_eq_ok.mp h
  obtain ⟨response, d₄, hresponse, h⟩ := exec_bind_eq_ok.mp h
  obtain ⟨error, d₅, herror, h⟩ := exec_bind_eq_ok.mp h
  obtain ⟨_, d₆, -, hmoves₆, h⟩ := (hmoves.write m _).exec_bind h
  obtain ⟨parameters, d₇, hparameters, h⟩ := exec_bind_eq_ok.mp h
  obtain ⟨_, d₈, hstruct, h⟩ := exec_bind_eq_ok.mp h
  obtain ⟨_, d₉, hclassify, h⟩ := exec_bind_eq_ok.mp h
  obtain ⟨_, d₁₀, hclient, h⟩ := exec_bind_eq_ok.mp h
  refine ⟨m, d₁, split, d₃, response, d₄, error, d₅, d₆, parameters, d₇, d₈, d₉, d₁₀, hmodule,
    hsplit, hresponse, herror, hmoves₆, hparameters, hstruct, hclassify, hclient, ?_⟩
  split at h
  case h_1 =>
    cases h
    apply Relation.ReflTransGen.single (.change (.report d₁₀ _))
  case h_2 =>
    cases h
    apply Relation.ReflTransGen.refl

/-- An endpoint that is written has its client. -/
theorem writeEndpoint_eq_ok {parent : ModuleId} {endpoint : Endpoint} (hd : Placed d)
    (hparent : d.modules.path parent = ⟨["http", "operations"]⟩)
    (h : exec (job.writeEndpoint parent endpoint) d = (.ok (), e)) :
  ∃ m split response error, job.HoldsClient e m endpoint split response error
  := by
  have hmoves := follows_moves job.graph
  obtain ⟨m, d₁, split, d₃, response, d₄, error, d₅, d₆, parameters, d₇, d₈, d₉, d₁₀, hmodule,
    hsplit, hresponse, herror, hmoves₆, hparameters, hstruct, hclassify, hclient, hlast⟩ :=
    writeEndpoint_steps h
  have hsuccess := job.spellSide_steady split.success (d₁.modules.path m)
  have hfailure := job.spellSide_steady split.error (d₁.modules.path m)
  have hmoves₁ := (hmoves.addModule _ _ _ _).exec hmodule
  have hmoves₃ := (splitReturn_stays hmoves.tracks _ _).exec hsplit
  have hmoves₄ := (hmoves.steady hsuccess).exec hresponse
  have hmoves₅ := (hmoves.steady hfailure).exec herror
  have hspells (parameter : HttpParameter) (_ : parameter ∈ endpoint.parameters job.graph) :=
    job.parameterLines_steady endpoint (d₁.modules.path m) parameter
  have hmoves₇ := (hmoves.steady (Steady.mapM hspells)).exec hparameters
  have hmoves₈ := (hmoves.write m _).exec hstruct
  have hmoves₉ := (hmoves.write m _).exec hclassify
  have hmoves₁₀ := (hmoves.write m _).exec hclient
  obtain ⟨hm, hpath⟩ := addModule_eq_ok hmodule
  have hd₃ := hmoves₃.placed (hmoves₁.placed hd)
  -- The drafts before and after the three texts are written.
  have hto₆ := hmoves₃.trans (hmoves₄.trans (hmoves₅.trans hmoves₆))
  have hto₇ := hto₆.trans hmoves₇
  have hm₇ := Nat.lt_of_lt_of_le hm (Moves.later hto₇).size
  have hm₈ := Nat.lt_of_lt_of_le hm₇ (Moves.later hmoves₈).size
  have hm₉ := Nat.lt_of_lt_of_le hm₈ (Moves.later hmoves₉).size
  have hfrom₉ := hmoves₁₀.trans hlast
  have hfrom₈ := hmoves₉.trans hfrom₉
  have hfrom₇ := hmoves₈.trans hfrom₈
  have hfrom₅ := hmoves₆.trans (hmoves₇.trans hfrom₇)
  have hfrom₄ := hmoves₅.trans hfrom₅
  have hfrom₁ := hto₇.trans hfrom₇
  have hkept : e.modules.path m = d₁.modules.path m := (Moves.later hfrom₁).path m hm
  refine ⟨m, split, response, error, ?_⟩
  constructor
  case exists_module => apply Nat.lt_of_lt_of_le hm (Moves.later hfrom₁).size
  case path =>
    rw [hkept, hpath, hparent]
    rfl
  case known =>
    apply (Moves.later (hmoves₄.trans hfrom₄)).split
    apply job.splitReturn_eq_ok hsplit
  case success =>
    rw [hkept]
    apply (hsuccess.settled hd₃ hresponse).later (Moves.later hfrom₄)
  case failure =>
    rw [hkept]
    apply (hfailure.settled (hmoves₄.placed hd₃) herror).later (Moves.later hfrom₅)
  case parameters =>
    have hd₆ := Moves.placed hto₆ (hmoves₁.placed hd)
    have hsettled := ((Steady.mapM hspells).settled hd₆ hparameters).later (Moves.later hfrom₇)
    rw [hkept]
    refine ⟨parameters, Steady.of_mapM hspells ?_ hsettled, ?_⟩
    · apply Moves.placed (hmoves₁.trans hfrom₁) hd
    · apply (holdsLines_of_write hm₇ hstruct).moves hfrom₈
  case classify => apply (holdsLines_of_write hm₈ hclassify).moves hfrom₉
  case client => apply (holdsLines_of_write hm₉ hclient).moves hlast

/-- Each endpoint is written below the module of all endpoints. -/
theorem writeEndpoints_steps {parent : ModuleId} {endpoints : List Endpoint}
    (hparent : d.modules.path parent = ⟨["http"]⟩)
    (h : exec (job.writeEndpoints parent endpoints) d = (.ok (), e)) :
  ∀ endpoint ∈ endpoints, ∃ m d₁ d₂, Moves job.graph d d₁
    ∧ d₁.modules.path m = ⟨["http", "operations"]⟩
    ∧ exec (job.writeEndpoint m endpoint) d₁ = (.ok (), d₂) ∧ Moves job.graph d₂ e
  := by
  intro endpoint hendpoint
  have hmoves := follows_moves job.graph
  obtain ⟨m, d₁, hmodule, hmoves₁, h⟩ := (hmoves.addModule _ _ _ _).exec_bind h
  obtain ⟨_, d₂, -, hmoves₂, h⟩ := (hmoves.write m _).exec_bind h
  obtain ⟨d₃, d₄, hmoves₃, hwritten, hlast⟩ :=
    hmoves.exec_forM (fun endpoint _ => writeEndpoint_stays hmoves m endpoint) h hendpoint
  obtain ⟨hm, hpath⟩ := addModule_eq_ok hmodule
  have hto₃ := hmoves₂.trans hmoves₃
  refine ⟨m, d₃, d₄, hmoves₁.trans hto₃, ?_, hwritten, hlast⟩
  rw [(Moves.later hto₃).path m hm, hpath, hparent]
  rfl

/-- Each endpoint that is written has its client. -/
theorem writeEndpoints_eq_ok {parent : ModuleId} {endpoints : List Endpoint} (hd : Placed d)
    (hparent : d.modules.path parent = ⟨["http"]⟩)
    (h : exec (job.writeEndpoints parent endpoints) d = (.ok (), e)) :
  ∀ endpoint ∈ endpoints, ∃ m split response error,
    job.HoldsClient e m endpoint split response error
  := by
  intro endpoint hendpoint
  obtain ⟨m, d₁, d₂, hbefore, hpath, hwritten, hlast⟩ :=
    writeEndpoints_steps hparent h endpoint hendpoint
  obtain ⟨client, split, response, error, hholds⟩ :=
    writeEndpoint_eq_ok (hbefore.placed hd) hpath hwritten
  exact ⟨client, split, response, error, hholds.moves hlast⟩

/-! ### The server -/

/-- Whether a method of the server at `path` serves an endpoint by a backend. -/
structure Serves (job : Job) (d : Draft) (path : ModulePath) (backend : Backend)
    (endpoint : Endpoint) (method : ServeMethod) : Prop extends job.IsBackend d path backend where
  container : backend.container = endpoint.http.operation.container
  method_endpoint : method.endpoint = endpoint
  method_backend : method.backend = backend.field
  method_path : method.parametersPath
    = path.itemReference ⟨["http", "operations", endpoint.moduleName]⟩ "Parameters"
  method_fields : method.fields = endpoint.extractedFields job.graph (job.config.host "server")
  action : Settled (job.serveAction (job.config.host "server") path backend endpoint) d
    method.action

theorem Serves.later {path : ModulePath} {backend : Backend} {endpoint : Endpoint}
    {method : ServeMethod} (h : job.Serves d path backend endpoint method) (hd : Placed d)
    (hlater : Later d e) :
  job.Serves e path backend endpoint method
  := { h with
    toIsBackend := h.toIsBackend.later hd hlater
    action := h.action.later hlater }

/-- Whether a module holds the server of endpoints: it has a method for each of them. -/
structure HoldsServer (job : Job) (d : Draft) (m : ModuleId) (endpoints : List Endpoint)
    (backends : List Backend) (methods : List ServeMethod) : Prop where
  exists_module : m.index < d.modules.size
  path : d.modules.path m = ⟨["http", "server"]⟩
  serves : List.Forall₂ (fun endpoint method => ∃ backend ∈ backends,
    job.Serves d ⟨["http", "server"]⟩ backend endpoint method) endpoints methods
  server : d.HoldsLines m (serverLines (job.config.host "server")
    (Identifier.typeName (job.graph.namespaceName job.service.root) ++ "Server") backends methods)

theorem HoldsServer.moves {m : ModuleId} {endpoints : List Endpoint} {backends : List Backend}
    {methods : List ServeMethod} (h : job.HoldsServer d m endpoints backends methods)
    (hd : Placed d) (hmoves : Moves job.graph d e) :
  job.HoldsServer e m endpoints backends methods
  := by
  constructor
  case exists_module => apply Nat.lt_of_lt_of_le h.exists_module hmoves.later.size
  case path => rw [hmoves.later.path m h.exists_module, h.path]
  case serves =>
    apply h.serves.imp
    rintro endpoint method ⟨backend, hbackend, hserves⟩
    exact ⟨backend, hbackend, hserves.later hd hmoves.later⟩
  case server => apply h.server.moves hmoves

/-- The endpoints with the backends of their containers. -/
def served (backends : List Backend) (endpoints : List Endpoint) : List (Endpoint × Backend) :=
  endpoints.filterMap fun endpoint =>
    (backends.find? fun backend => backend.container = endpoint.http.operation.container).map
      fun backend => (endpoint, backend)

/-- Every endpoint is served if each container has a backend. -/
theorem map_served {backends : List Backend} {endpoints : List Endpoint}
    (h : ∀ endpoint ∈ endpoints, ∃ backend ∈ backends,
      backend.container = endpoint.http.operation.container) :
  (served backends endpoints).map (·.1) = endpoints
  := by
  induction endpoints with
  | nil => rfl
  | cons endpoint rest ih =>
      have hfound : (backends.find? fun backend =>
          backend.container = endpoint.http.operation.container).isSome := by
        rw [List.find?_isSome]
        obtain ⟨backend, hbackend, hcontainer⟩ := h endpoint List.mem_cons_self
        use backend, hbackend
        simpa using hcontainer
      obtain ⟨backend, hbackend⟩ := Option.isSome_iff_exists.mp hfound
      rw [served, List.filterMap_cons_some (by rw [hbackend]; rfl), List.map_cons]
      congr 1
      apply ih fun other hother => h other (List.mem_cons_of_mem _ hother)

theorem mem_served {backends : List Backend} {endpoints : List Endpoint} {endpoint : Endpoint}
    {backend : Backend} (h : (endpoint, backend) ∈ served backends endpoints) :
  endpoint ∈ endpoints ∧ backend ∈ backends
    ∧ backend.container = endpoint.http.operation.container
  := by
  obtain ⟨found, hfound, heq⟩ := List.mem_filterMap.mp h
  obtain ⟨chosen, hchosen, heq⟩ := Option.map_eq_some_iff.mp heq
  obtain ⟨rfl, rfl⟩ := Prod.mk.inj heq
  exact ⟨hfound, List.mem_of_find?_eq_some hchosen, by simpa using List.find?_some hchosen⟩

/-- A method of the server does what is settled for its endpoint. -/
theorem serveMethod_eq_ok {host : String} {path endpoints : ModulePath} {endpoint : Endpoint}
    {backend : Backend} {method : ServeMethod} (hd : Placed d)
    (hoperation : endpoint.operation ∈ job.graph.operations endpoint.http.operation.container)
    (h : exec (job.serveMethod host path endpoints (endpoint, backend)) d = (.ok method, e)) :
  method.endpoint = endpoint ∧ method.backend = backend.field
    ∧ method.parametersPath
      = path.itemReference (endpoints.enter [endpoint.moduleName]) "Parameters"
    ∧ method.fields = endpoint.extractedFields job.graph host
    ∧ Settled (job.serveAction host path backend endpoint) e method.action
  := by
  obtain ⟨action, d', haction, h⟩ := exec_bind_eq_ok.mp h
  cases h
  exact ⟨rfl, rfl, rfl, rfl,
    (job.serveAction_settles host path backend hoperation).settled hd haction⟩

/-- The steps of writing a server: all endpoints are served. -/
theorem writeServer_steps {parent : ModuleId} {endpoints : List Endpoint}
    (hendpoints : endpoints ≠ []) (h : exec (job.writeServer parent endpoints) d = (.ok (), e)) :
  ∃ m d₁ backends d₂ methods d₃,
    exec (addModule parent "server" false
      "Request dispatch onto the service's operation traits.") d = (.ok m, d₁)
    ∧ exec (job.backends (d₁.modules.path m) ⟨["R"]⟩
      (endpoints.map (·.http.operation.container)).eraseDups) d₁ = (.ok backends, d₂)
    ∧ (served backends endpoints).map (·.1) = endpoints
    ∧ exec ((served backends endpoints).mapM (job.serveMethod (job.config.host "server")
      (d₁.modules.path m) ((d₁.modules.path parent).enter ["operations"]))) d₂ = (.ok methods, d₃)
    ∧ exec (write m (serverLines (job.config.host "server")
      (Identifier.typeName (job.graph.namespaceName job.service.root) ++ "Server") backends
      methods)) d₃ = (.ok (), e)
  := by
  rw [writeServer, if_neg (by simpa using hendpoints)] at h
  obtain ⟨m, d₁, hmodule, h⟩ := exec_bind_eq_ok.mp h
  rw [exec_bind_of_ok (exec_pathOf m d₁), exec_bind_of_ok (exec_pathOf parent d₁)] at h
  obtain ⟨backends, d₂, hbackends, h⟩ := exec_bind_eq_ok.mp h
  obtain ⟨methods, d₃, hmethods, hwrite⟩ := exec_bind_eq_ok.mp h
  refine ⟨m, d₁, backends, d₂, methods, d₃, hmodule, hbackends, ?_, hmethods, hwrite⟩
  apply map_served
  intro endpoint hendpoint
  have hcontainer : endpoint.http.operation.container ∈ backends.map (·.container) := by
    rw [container_backends hbackends, List.mem_eraseDups]
    apply List.mem_map_of_mem hendpoint
  simpa using hcontainer

/-- A server that is written serves each endpoint. -/
theorem writeServer_eq_ok {parent : ModuleId} {endpoints : List Endpoint} (hd : Placed d)
    (hparent : d.modules.path parent = ⟨["http"]⟩) (hendpoints : endpoints ≠ [])
    (hoperations : ∀ endpoint ∈ endpoints,
      endpoint.operation ∈ job.graph.operations endpoint.http.operation.container)
    (h : exec (job.writeServer parent endpoints) d = (.ok (), e)) :
  ∃ m backends methods, job.HoldsServer e m endpoints backends methods
  := by
  have hmoves := follows_moves job.graph
  obtain ⟨m, d₁, backends, d₂, methods, d₃, hmodule, hbackends, hserved, hmethods, hwrite⟩ :=
    writeServer_steps hendpoints h
  obtain ⟨hm, hpath⟩ := addModule_eq_ok hmodule
  rw [hparent] at hpath
  have hserve (pair : Endpoint × Backend) (_ : pair ∈ served backends endpoints) :=
    job.serveMethod_moves (job.config.host "server") (d₁.modules.path m)
      ((d₁.modules.path parent).enter ["operations"]) pair
  have hmoves₁ : Moves job.graph d d₁ := (hmoves.addModule _ _ _ _).exec hmodule
  have hmoves₂ : Moves job.graph d₁ d₂ := (backends_stays hmoves _ _ _).exec hbackends
  have hmoves₃ : Moves job.graph d₂ d₃ := (hmoves.mapM hserve).exec hmethods
  have hlast : Moves job.graph d₃ e := (hmoves.write m _).exec hwrite
  have hd₁ := hmoves₁.placed hd
  have hd₂ := hmoves₂.placed hd₁
  have hm₃ := Nat.lt_of_lt_of_le hm (Moves.later (hmoves₂.trans hmoves₃)).size
  have hparent₁ : d₁.modules.path parent = ⟨["http"]⟩ := by
    rw [hmoves₁.later.path parent, hparent]
    apply ModuleTree.lt_size_of_path_ne
    rw [hparent]
    decide
  refine ⟨m, backends, methods, ?_⟩
  constructor
  case exists_module => apply Nat.lt_of_lt_of_le hm₃ hlast.later.size
  case path =>
    rw [(Moves.later (hmoves₂.trans (hmoves₃.trans hlast))).path m hm, hpath]
    rfl
  case serves =>
    rw [← hserved, List.forall₂_map_left_iff]
    have hall := hmoves.exec_mapM hserve hmethods
    apply ((List.forall₂_and_left _ _).mpr ⟨fun pair hpair => hpair, hall⟩).imp
    rintro ⟨endpoint, backend⟩ method ⟨hpair, d₄, d₅, hbefore, hexec, hafter⟩
    obtain ⟨hendpoint, hbackend, hcontainer⟩ := mem_served hpair
    rw [hpath] at hexec hbackends
    rw [hparent₁] at hexec
    obtain ⟨hmethod, hdelegate, hparameters, hfields, haction⟩ :=
      serveMethod_eq_ok (Moves.placed hbefore hd₂) (hoperations endpoint hendpoint) hexec
    have hstands := backends_eq_ok hd₁ hbackends backend hbackend
    use backend, hbackend
    exact {
      toIsBackend := hstands.later hd₂ (Moves.later (hmoves₃.trans hlast))
      container := hcontainer
      method_endpoint := hmethod
      method_backend := hdelegate
      method_path := hparameters
      method_fields := hfields
      action := haction.later (Moves.later (hafter.trans hlast)) }
  case server => apply holdsLines_of_write hm₃ hwrite

/-! ### The surface -/

/-- Whether a draft holds the HTTP surface of endpoints. -/
structure HoldsSurface (job : Job) (d : Draft) (endpoints : List Endpoint) : Prop where
  requested : ∀ endpoint ∈ endpoints,
    endpoint.http.operation.container.declaration ∈ d.declarations.items
  clients : ∀ endpoint ∈ endpoints, ∃ m split response error,
    job.HoldsClient d m endpoint split response error
  server : endpoints ≠ [] → ∃ m backends methods, job.HoldsServer d m endpoints backends methods

theorem HoldsSurface.moves {endpoints : List Endpoint} (h : job.HoldsSurface d endpoints)
    (hd : Placed d) (hmoves : Moves job.graph d e) :
  job.HoldsSurface e endpoints
  := by
  constructor
  case requested =>
    intro endpoint hendpoint
    apply hmoves.later.accepted _ (h.requested endpoint hendpoint)
  case clients =>
    intro endpoint hendpoint
    obtain ⟨m, split, response, error, hholds⟩ := h.clients endpoint hendpoint
    exact ⟨m, split, response, error, hholds.moves hmoves⟩
  case server =>
    intro hendpoints
    obtain ⟨m, backends, methods, hholds⟩ := h.server hendpoints
    exact ⟨m, backends, methods, hholds.moves hd hmoves⟩

/-- The drafts of a session have their namespaces placed. -/
theorem Session.placed (h : job.Session d) : Placed d :=
  Moves.placed h (consistent_start job.graph).toPlaced

/-- The root of a session stays at the root. -/
theorem Session.path_root (h : job.Session d) : d.modules.path .root = .root :=
  (Moves.later h).path .root (by decide)

/-- A run ends with a draft of its session. -/
theorem session_of_run {draft : Draft} {outcome : Except CompileError Unit}
    (hrun : exec job.run .start = (outcome, draft)) :
  job.Session draft :=
  (run_stays (follows_moves job.graph) job.serveMethod_moves).exec hrun

/-- The steps of writing the HTTP surface. -/
theorem writeSurface_steps {http : HttpService}
    (h : exec (job.writeSurface http) d = (.ok (), e)) :
  ∃ m d₁ d₂ d₃ d₅ d₆,
    exec (addModule .root "http" false "HTTP routing, endpoint metadata and credentials.") d
      = (.ok m, d₁)
    ∧ Moves job.graph d₁ d₂
    ∧ exec ((Endpoint.collect job.graph http).1.forM fun endpoint =>
      Drafting.request endpoint.http.operation.container.declaration) d₂ = (.ok (), d₃)
    ∧ Moves job.graph d₃ d₅
    ∧ exec (job.writeEndpoints m (Endpoint.collect job.graph http).1) d₅ = (.ok (), d₆)
    ∧ exec (job.writeServer m (Endpoint.collect job.graph http).1) d₆ = (.ok (), e)
  := by
  have hmoves := follows_moves job.graph
  obtain ⟨m, d₁, hmodule, h⟩ := exec_bind_eq_ok.mp h
  obtain ⟨_, d₂, -, hmoves₂, h⟩ := (reportProblems_stays hmoves http).exec_bind h
  obtain ⟨_, d₃, hrequest, h⟩ := exec_bind_eq_ok.mp h
  obtain ⟨_, d₄, -, hmoves₄, h⟩ := (writeCredential_stays hmoves m _).exec_bind h
  obtain ⟨_, d₅, -, hmoves₅, h⟩ := (writeRouter_stays hmoves m _).exec_bind h
  obtain ⟨_, d₆, hendpoints, hserver⟩ := exec_bind_eq_ok.mp h
  exact ⟨m, d₁, d₂, d₃, d₅, d₆, hmodule, hmoves₂, hrequest, hmoves₄.trans hmoves₅, hendpoints,
    hserver⟩

/-- Writing the HTTP surface leaves a draft that holds it. -/
theorem writeSurface_eq_ok {http : HttpService} (hd : job.Session d)
    (h : exec (job.writeSurface http) d = (.ok (), e)) :
  job.HoldsSurface e (Endpoint.collect job.graph http).1
  := by
  have hmoves := follows_moves job.graph
  obtain ⟨m, d₁, d₂, d₃, d₅, d₆, hmodule, hmoves₂, hrequest, hmoves₅, hendpoints, hserver⟩ :=
    writeSurface_steps h
  have hmoves₁ := (hmoves.addModule _ _ _ _).exec hmodule
  have hmoves₃ := (requestContainers_stays hmoves _).exec hrequest
  have hmoves₆ := (writeEndpoints_stays hmoves m _).exec hendpoints
  obtain ⟨hm, hpath⟩ := addModule_eq_ok hmodule
  rw [hd.path_root] at hpath
  have hlast : Moves job.graph d₆ e :=
    (writeServer_stays hmoves job.serveMethod_moves m _).exec hserver
  have hto₅ := hmoves₂.trans (hmoves₃.trans hmoves₅)
  have hto₆ := hto₅.trans hmoves₆
  have hd₁ := hmoves₁.placed hd.placed
  have hpath₅ : d₅.modules.path m = ⟨["http"]⟩ := by
    rw [(Moves.later hto₅).path m hm, hpath]
    rfl
  have hpath₆ : d₆.modules.path m = ⟨["http"]⟩ := by
    rw [(Moves.later hto₆).path m hm, hpath]
    rfl
  constructor
  case requested =>
    intro endpoint hendpoint
    obtain ⟨d', d'', -, hasked, hafter⟩ :=
      hmoves.exec_forM (fun endpoint _ => hmoves.request _) hrequest hendpoint
    have hfrom₃ := hmoves₅.trans (hmoves₆.trans hlast)
    apply (Moves.later (hafter.trans hfrom₃)).accepted
    cases hasked
    apply (Worklist.mem_items_add _ _ _).mpr (Or.inr rfl)
  case clients =>
    intro endpoint hendpoint
    obtain ⟨client, split, response, error, hholds⟩ :=
      writeEndpoints_eq_ok (Moves.placed hto₅ hd₁) hpath₅ hendpoints endpoint hendpoint
    exact ⟨client, split, response, error, hholds.moves hlast⟩
  case server =>
    intro hne
    apply writeServer_eq_ok (Moves.placed hto₆ hd₁) hpath₆ hne _ hserver
    intro endpoint hendpoint
    apply (TypeGraph.operation?_eq_some (Endpoint.operation_mem hendpoint).2).1

/-- A run that succeeds wrote the HTTP surface at some time, if it is wanted. -/
theorem run_surface {R : Draft → Draft → Prop} (hR : Follows job.graph R) {http : HttpService}
    (hhttp : job.service.http = some http) (hwanted : job.config.http = true)
    (h : exec job.run d = (.ok (), e)) :
  ∃ d₁ d₂, R d d₁ ∧ exec (job.writeSurface http) d₁ = (.ok (), d₂) ∧ R d₂ e
  := by
  obtain ⟨m, d₁, -, hR₁, h⟩ := (hR.steady (job.place_steady _)).exec_bind h
  obtain ⟨_, d₂, -, hR₂, h⟩ := (hR.forM fun declaration _ => hR.request declaration).exec_bind h
  obtain ⟨_, d₃, -, hR₃, h⟩ := (complete_stays hR).exec_bind h
  rw [hhttp] at h
  dsimp only at h
  rw [if_pos hwanted] at h
  obtain ⟨_, d₄, hsurface, h⟩ := exec_bind_eq_ok.mp h
  obtain ⟨_, d₅, -, hR₅, hroot⟩ := (complete_stays hR).exec_bind h
  exact ⟨d₃, d₄, hR.trans hR₁ (hR.trans hR₂ hR₃), hsurface,
    hR.trans hR₅ ((writeRoot_stays hR m).exec hroot)⟩

/-- A run that succeeds ends with a draft that holds the HTTP surface, if it is wanted. -/
theorem run_holdsSurface {draft : Draft} {http : HttpService}
    (hrun : exec job.run .start = (.ok (), draft)) (hhttp : job.service.http = some http)
    (hwanted : job.config.http = true) :
  job.HoldsSurface draft (Endpoint.collect job.graph http).1
  := by
  obtain ⟨d₁, d₂, hbefore, hsurface, hafter⟩ :=
    run_surface (follows_moves job.graph) hhttp hwanted hrun
  apply (writeSurface_eq_ok hbefore hsurface).moves _ hafter
  apply Session.placed (hbefore.trans _)
  apply (writeSurface_stays (follows_moves job.graph) job.serveMethod_moves http).exec hsurface

end Job

end ServiceBindings
