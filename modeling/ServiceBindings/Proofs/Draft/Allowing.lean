import ServiceBindings.Compile
import ServiceBindings.Proofs.Draft.Surface

/-!
# What drafting consists of

Whatever is drafted consists of a few things: problems are reported, declarations are requested and
written, namespaces are placed, types without a name get one, and operations are split.  A relation
of drafts that allows these holds along each declaration and each part of the surface.  Modules for
anything but namespaces are made by the surface only.  Unbound parameters are reported by the calls
of the server only, which therefore stand out.

What is drafted is walked through here, once for all relations.
-/

namespace ServiceBindings

open Draft

/-! ### Relations along steps -/

namespace Drafting

variable {α β : Type} {graph : TypeGraph} {R : Draft → Draft → Prop}

/-- Whether a relation holds between the draft that a step starts with and the one that it leaves,
whether it succeeds or not. -/
def Stays (R : Draft → Draft → Prop) (x : Drafting α) : Prop :=
  ∀ d, R d (exec x d).2

/-- A step that such a relation holds for leads along it. -/
theorem Stays.exec {x : Drafting α} (h : Stays R x) {d e : Draft}
    {outcome : Except CompileError α} (hexec : exec x d = (outcome, e)) :
  R d e
  := by
  have hx := h d
  rw [hexec] at hx
  apply hx

/-- If a sequence succeeds, then its first step leads along the relation to where the rest
starts. -/
theorem Stays.exec_bind {x : Drafting α} (h : Stays R x) {f : α → Drafting β} {d e : Draft} {b : β}
    (hexec : Drafting.exec (x >>= f) d = (.ok b, e)) :
  ∃ a d', Drafting.exec x d = (.ok a, d') ∧ R d d' ∧ Drafting.exec (f a) d' = (.ok b, e)
  := by
  obtain ⟨a, d', hx, hf⟩ := exec_bind_eq_ok.mp hexec
  exact ⟨a, d', hx, h.exec hx, hf⟩

/-- Whether a relation holds between each draft and itself and goes on from draft to draft. -/
structure Composes (R : Draft → Draft → Prop) : Prop where
  refl : ∀ d, R d d
  trans : ∀ {c d e}, R c d → R d e → R c e

namespace Composes

variable (hR : Composes R)
include hR

theorem pure (a : α) : Stays R (pure a) := fun d => hR.refl d

theorem throw (error : CompileError) : Stays R (throw error : Drafting α) := fun d => hR.refl d

theorem pathOf (m : ModuleId) : Stays R (pathOf m) := fun d => hR.refl d

theorem bind {x : Drafting α} {f : α → Drafting β} (hx : Stays R x)
    (hf : ∀ a, Stays R (f a)) :
  Stays R (x >>= f)
  := by
  intro d
  apply exec_bind_rel @hR.trans (hx d)
  intro a e _
  apply hf a e

theorem bind_pure {x : Drafting α} (hx : Stays R x) (f : α → β) :
  Stays R (x >>= fun a => Pure.pure (f a)) :=
  hR.bind hx fun a => hR.pure (f a)

theorem mapM {f : α → Drafting β} {items : List α} (hf : ∀ a ∈ items, Stays R (f a)) :
  Stays R (items.mapM f)
  := by
  induction items with
  | nil =>
      rw [List.mapM_nil]
      apply hR.pure
  | cons item items ih =>
      rw [List.mapM_cons]
      apply hR.bind (hf item List.mem_cons_self)
      intro b
      apply hR.bind (ih fun a ha => hf a (List.mem_cons_of_mem _ ha))
      intro bs
      apply hR.pure

theorem forM {f : α → Drafting Unit} {items : List α} (hf : ∀ a ∈ items, Stays R (f a)) :
  Stays R (items.forM f)
  := by
  induction items with
  | nil => apply hR.pure
  | cons item items ih =>
      apply hR.bind (hf item List.mem_cons_self)
      intro _
      apply ih fun a ha => hf a (List.mem_cons_of_mem _ ha)

end Composes

end Drafting

/-! ### Problems of the surface -/

namespace Endpoint

theorem kind_of_shapeProblem? {graph : TypeGraph} {endpoint : Endpoint} {problem : Diagnostic}
    (h : endpoint.shapeProblem? graph = some problem) :
  problem.kind = .multipleResponseShapes
  := by
  unfold shapeProblem? at h
  dsimp only at h
  split at h
  case isTrue => cases h
  case isFalse =>
    cases h
    rfl

theorem kind_of_mem_routeProblems {endpoints : List Endpoint} {problem : Diagnostic}
    (h : problem ∈ routeProblems endpoints) :
  problem.kind = .duplicateRoute
  := by
  obtain ⟨duplicate, -, hproblem⟩ := List.mem_filterMap.mp h
  obtain ⟨first, -, hproblem⟩ := Option.bind_eq_some_iff.mp hproblem
  obtain ⟨later, -, hproblem⟩ := Option.bind_eq_some_iff.mp hproblem
  cases hproblem
  rfl

theorem kind_of_mem_collect {graph : TypeGraph} {http : HttpService} {problem : Diagnostic}
    (h : problem ∈ (collect graph http).2) :
  problem.kind = .unknownOperation
  := by
  rw [collect] at h
  generalize http.operations = operations at h
  generalize ([] : List String) = taken at h
  induction operations generalizing taken with
  | nil => cases h
  | cons http rest ih =>
      rw [collectFrom] at h
      split at h
      case h_1 =>
        rcases List.mem_cons.mp h with rfl | h
        · rfl
        · apply ih _ h
      case h_2 => apply ih _ h

end Endpoint

theorem Credential.kind_of_ofSchemes {schemes : List AuthScheme} {problem : Diagnostic}
    (h : ofSchemes schemes = some (.error problem)) :
  problem.kind = .unsupportedAuthentication
  := by
  unfold ofSchemes at h
  split at h
  case h_1 => cases h
  case h_2 =>
    split at h
    case h_1 => cases h
    case h_2 =>
      cases h
      rfl
  case h_3 =>
    cases h
    rfl

/-! ### Relations along drafting -/

namespace Job

open Drafting

/-- Whether a relation holds along all that drafting does besides splitting operations, making
modules and calling what the server serves. -/
structure Allows (job : Job) (R : Draft → Draft → Prop) : Prop extends Composes R where
  report : ∀ {diagnostic : Diagnostic}, diagnostic.kind ≠ .unboundParameter →
    Stays R (report diagnostic)
  request : ∀ declaration, Stays R (request declaration)
  place : ∀ id, Stays R (job.place id)
  anonymousName : ∀ {id}, job.graph.Declares (.type id) → ∀ preferred,
    Stays R (anonymousName id preferred)
  mark : ∀ (d : Draft) key, R d { d with synthesized := key :: d.synthesized }
  write : ∀ m lines, Stays R (write m lines)

/-- Whether a relation also holds along the splits of operations. -/
structure AllowsSplits (job : Job) (R : Draft → Draft → Prop) : Prop extends Allows job R where
  splitReturn : ∀ {container operation}, operation ∈ job.graph.operations container →
    Stays R (job.splitReturn container operation)

/-- Whether a relation also holds along the making of modules. -/
structure AllowsModules (job : Job) (R : Draft → Draft → Prop) : Prop extends Allows job R where
  addModule : ∀ parent name inline doc, Stays R (addModule parent name inline doc)

variable {job : Job} {R : Draft → Draft → Prop}

/-! ### Without splits -/

namespace Allows

variable (hR : job.Allows R)
include hR

theorem placeOfContainer (container : Container) : Stays R (job.placeOfContainer container) := by
  cases container with
  | group id => apply hR.place
  | interface id =>
      apply hR.bind _ hR.place
      unfold ownerOf
      split
      case h_1 => apply hR.pure
      case h_2 => apply hR.throw

theorem placeOf (id : TypeId) : Stays R (job.placeOf id) := hR.placeOfContainer (.interface id)

theorem declarationName (id : TypeId) : Stays R (job.declarationName id) := by
  unfold Job.declarationName
  split
  case h_1 => apply hR.pure
  case h_2 => apply hR.throw

theorem spellScalar (id : TypeId) (span : Option Span) (use : TypeUse) :
  Stays R (job.spellScalar id span use)
  := by
  unfold Job.spellScalar
  split
  case h_1 => apply hR.pure
  case h_2 =>
    refine hR.bind_pure (hR.report ?_) _
    nofun

theorem spellDeclaration (id : TypeId) (path : ModulePath) :
  Stays R (job.spellDeclaration id path)
  := by
  apply hR.bind (hR.declarationName id)
  intro name
  apply hR.bind (hR.placeOf id)
  intro m
  apply hR.bind (hR.pathOf m)
  intro target
  apply hR.bind_pure (hR.request _)

theorem spellCore (id : TypeId) (span : Option Span) (use : TypeUse) (path : ModulePath)
    (preferred : String) :
  Stays R (job.spellCore id span use path preferred)
  := by
  have hdeclaration := hR.bind_pure (hR.spellDeclaration id path) (referenceFor use)
  unfold Job.spellCore
  split
  case h_1 => apply hR.throw
  case h_2 kind hkind =>
    have hname := hR.anonymousName (TypeGraph.declares_of_kind? hkind) preferred
    have hanonymous : Stays R (spellAnonymous id path preferred) := hR.bind_pure hname _
    have hanonymous := hR.bind_pure hanonymous (referenceFor use)
    cases kind with
    | scalar _ => apply hR.spellScalar
    | record _ | union _ =>
        dsimp only
        split
        case isTrue => apply hanonymous
        case isFalse => apply hdeclaration
    | enum _ | interface _ => apply hdeclaration
    | array _ | map _ | literal _ => apply hR.throw
    | intrinsic _ => apply hR.pure

theorem spell (id : TypeId) (span : Option Span) (use : TypeUse) (path : ModulePath)
    (preferred : String) :
  Stays R (job.spell id span use path preferred)
  := by
  unfold Job.spell
  split
  case h_1 => apply hR.throw
  case h_2 => apply hR.spellCore
  case h_3 => apply hR.bind_pure (hR.spellCore _ _ _ _ _)

theorem spellSide (side : ReturnSide) (path : ModulePath) : Stays R (job.spellSide side path) := by
  cases side with
  | nothing => apply hR.pure
  | type id name => apply hR.spell
  | union item => apply hR.pure

theorem recordDecl (id : TypeId) (record : RecordType) (name : String) (path : ModulePath) :
  Stays R (job.recordDecl id record name path)
  := by
  have hadapter (field : Field) : Stays R (job.adapterOf field) := by
    unfold adapterOf
    split
    case h_1 => apply hR.pure
    case h_2 =>
      split
      case isTrue => apply hR.pure
      case isFalse =>
        refine hR.bind_pure (hR.report ?_) _
        nofun
  apply hR.bind_pure
  apply hR.mapM
  intro field _
  apply hR.bind (hR.spell _ _ _ _ _)
  intro type
  apply hR.bind_pure (hadapter field)

theorem unionDecl (id : TypeId) (union : UnionType) (selected : List Nat) (doc : Option String)
    (name : String) (path : ModulePath) :
  Stays R (job.unionDecl id union selected doc name path)
  := by
  have hpayload (preferred : String) (index : Nat) (variant : UnionVariant) :
      Stays R (job.payload id path preferred index variant) := by
    unfold payload
    split
    case h_1 => apply hR.pure
    case h_2 => apply hR.pure
    case h_3 => apply hR.bind_pure (hR.spell _ _ _ _ _)
  apply hR.bind_pure
  apply hR.mapM
  rintro ⟨ident, index, variant⟩ _
  apply hR.bind_pure (hpayload _ _ _)

theorem syntheticLines (synthetic : Synthetic) : Stays R (job.syntheticLines synthetic) := by
  cases synthetic with
  | anonymous name id =>
      unfold Job.syntheticLines
      dsimp only
      split
      case h_1 => apply hR.bind_pure (hR.recordDecl _ _ _ _)
      case h_2 => apply hR.bind_pure (hR.unionDecl _ _ _ _ _ _)
      case h_3 => apply hR.throw
  | subset name id variants =>
      unfold Job.syntheticLines
      dsimp only
      split
      case h_1 => apply hR.bind_pure (hR.unionDecl _ _ _ _ _ _)
      case h_2 => apply hR.throw

theorem writeSynthetic (synthetic : Synthetic) : Stays R (job.writeSynthetic synthetic) := by
  intro d
  rw [Job.writeSynthetic, exec_get_bind]
  split
  case isTrue => apply hR.refl
  case isFalse =>
    apply exec_bind_rel @hR.trans (hR.mark d synthetic.key)
    intro _ e _
    apply hR.bind (hR.syntheticLines synthetic)
    intro lines
    apply hR.write

theorem backends (path : ModulePath) (scope : NameScope) (containers : List Container) :
  Stays R (job.backends path scope containers)
  := by
  have htrait (container : Container) : Stays R (job.traitName container) := by
    cases container with
    | group id => apply hR.pure
    | interface id => apply hR.declarationName
  induction containers generalizing scope with
  | nil => apply hR.pure
  | cons container rest ih =>
      apply hR.bind (htrait container)
      intro trait
      apply hR.bind (hR.placeOfContainer container)
      intro m
      apply hR.bind (hR.pathOf m)
      intro module
      apply hR.bind_pure (ih _)

theorem callArguments (hreport : ∀ diagnostic, Stays R (Drafting.report diagnostic)) (host : String)
    (backend : Backend) (endpoint : Endpoint) (parameters : List Field) :
  Stays R (job.callArguments host backend endpoint parameters)
  := by
  have hargument (parameter : Field) (bound : HttpParameter) : Stays R
      (job.callArgument host backend endpoint.operation.name parameter bound) := by
    unfold callArgument
    dsimp only
    split
    case isTrue => apply hR.pure
    case isFalse => apply hR.bind_pure (hR.spell _ _ _ _ _)
  induction parameters with
  | nil => apply hR.pure
  | cons parameter rest ih =>
      unfold Job.callArguments
      split
      case h_1 => apply hR.bind_pure (hreport _)
      case h_2 =>
        apply hR.bind (hargument _ _)
        intro argument
        apply hR.bind ih
        intro arguments
        apply hR.pure

/-- The credential is written into a module of its own, which is inline. -/
theorem writeCredential {parent : ModuleId}
    (hmodule : ∀ name doc, Stays R (addModule parent name true doc)) (schemes : List AuthScheme) :
  Stays R (writeCredential parent schemes)
  := by
  unfold Job.writeCredential
  split
  case h_1 => apply hR.pure
  case h_2 hproblem =>
    apply hR.report
    rw [Credential.kind_of_ofSchemes hproblem]
    decide
  case h_3 =>
    apply hR.bind (hmodule _ _)
    intro m
    apply hR.write

/-- An endpoint is written into a module of its own, which is inline. -/
theorem writeEndpoint {parent : ModuleId}
    (hmodule : ∀ name doc, Stays R (addModule parent name true doc)) {endpoint : Endpoint}
    (hsplit : Stays R
      (job.splitReturn endpoint.http.operation.container endpoint.operation)) :
  Stays R (job.writeEndpoint parent endpoint)
  := by
  apply hR.bind (hmodule _ _)
  intro m
  apply hR.bind (hR.pathOf m)
  intro path
  apply hR.bind hsplit
  intro split
  apply hR.bind (hR.spellSide _ _)
  intro response
  apply hR.bind (hR.spellSide _ _)
  intro error
  apply hR.bind (hR.write _ _)
  intro _
  apply hR.bind
  · apply hR.mapM
    intro parameter _
    apply hR.bind_pure (hR.spell _ _ _ _ _)
  · intro parameters
    apply hR.bind (hR.write _ _)
    intro _
    apply hR.bind (hR.write _ _)
    intro _
    apply hR.bind (hR.write _ _)
    intro _
    split
    case h_1 hproblem =>
      apply hR.report
      rw [Endpoint.kind_of_shapeProblem? hproblem]
      decide
    case h_2 => apply hR.pure

theorem serveMethod (hreport : ∀ diagnostic, Stays R (Drafting.report diagnostic)) (host : String)
    (path endpoints : ModulePath) (backend : Backend) {endpoint : Endpoint}
    (hsplit : Stays R
      (job.splitReturn endpoint.http.operation.container endpoint.operation)) :
  Stays R (job.serveMethod host path endpoints (endpoint, backend))
  := by
  apply hR.bind_pure
  apply hR.bind (hR.callArguments hreport _ _ _ _)
  intro arguments
  cases arguments with
  | error parameter => apply hR.pure
  | ok arguments => apply hR.bind_pure hsplit

theorem reportProblems (http : HttpService) :
  Stays R ((Endpoint.collect job.graph http).2.forM Drafting.report)
  := by
  apply hR.forM
  intro problem hproblem
  apply hR.report
  rw [Endpoint.kind_of_mem_collect hproblem]
  decide

end Allows

/-! ### With splits -/

namespace AllowsSplits

variable (hR : job.AllowsSplits R)
include hR

theorem traitDecl (container : Container) (name : String) (doc : Option String)
    (path : ModulePath) :
  Stays R (job.traitDecl container name doc path)
  := by
  apply hR.bind_pure
  apply hR.mapM
  intro operation hoperation
  apply hR.bind (hR.splitReturn hoperation)
  intro split
  apply hR.bind (hR.spellSide _ _)
  intro success
  apply hR.bind (hR.spellSide _ _)
  intro error
  apply hR.bind_pure
  apply hR.mapM
  intro parameter _
  apply hR.bind_pure (hR.spell _ _ _ _ _)

theorem typeLines (id : TypeId) (name : String) (path : ModulePath) :
  Stays R (job.typeLines id name path)
  := by
  unfold Job.typeLines
  dsimp only
  split
  case h_1 => apply hR.bind_pure (hR.recordDecl _ _ _ _)
  case h_2 => apply hR.pure
  case h_3 => apply hR.bind_pure (hR.unionDecl _ _ _ _ _ _)
  case h_4 => apply hR.bind_pure (hR.traitDecl _ _ _ _)
  case h_5 => apply hR.bind_pure (hR.spellScalar _ _ _)
  case h_6 => apply hR.throw

theorem writeDeclaration (declaration : DeclarationRef) :
  Stays R (job.writeDeclaration declaration)
  := by
  cases declaration with
  | type id =>
      apply hR.bind (hR.declarationName id)
      intro name
      apply hR.bind (hR.placeOf id)
      intro m
      apply hR.bind (hR.pathOf m)
      intro path
      apply hR.bind (hR.typeLines id name path)
      intro lines
      apply hR.write
  | operations id =>
      apply hR.bind (hR.place id)
      intro m
      apply hR.bind (hR.pathOf m)
      intro path
      apply hR.bind (hR.traitDecl _ _ _ _)
      intro trait
      apply hR.write

end AllowsSplits

/-! ### Modules of the surface -/

/-- The router has a module, which is made first. -/
theorem writeRouter_eq (job : Job) (parent : ModuleId) (endpoints : List Endpoint) :
  ∃ doc fill, writeRouter parent endpoints = (addModule parent "router" false doc >>= fill)
    ∧ ∀ R, job.Allows R → ∀ m, Stays R (fill m)
  := by
  refine ⟨_, _, rfl, ?_⟩
  intro R hR m
  apply hR.bind
  · apply hR.forM
    intro problem hproblem
    apply hR.report
    rw [Endpoint.kind_of_mem_routeProblems hproblem]
    decide
  · intro _
    apply hR.bind (hR.write _ _)
    intro _
    apply hR.bind (hR.write _ _)
    intro _
    apply hR.write

/-- The endpoints have a module, which is made first, and each has an inline one in it. -/
theorem writeEndpoints_eq (job : Job) (parent : ModuleId) (endpoints : List Endpoint) :
  ∃ doc fill, job.writeEndpoints parent endpoints
      = (addModule parent "operations" false doc >>= fill)
    ∧ ∀ R, job.Allows R → ∀ m, (∀ name doc, Stays R (addModule m name true doc)) →
      (∀ endpoint ∈ endpoints, Stays R
        (job.splitReturn endpoint.http.operation.container endpoint.operation)) →
      Stays R (fill m)
  := by
  refine ⟨_, _, rfl, ?_⟩
  intro R hR m hmodule hsplit
  apply hR.bind (hR.write _ _)
  intro _
  apply hR.forM
  intro endpoint hendpoint
  apply hR.writeEndpoint hmodule (hsplit endpoint hendpoint)

/-- The server has a module, which is made first, unless there is nothing to serve. -/
theorem writeServer_eq (job : Job) (parent : ModuleId) {endpoints : List Endpoint}
    (hne : endpoints.isEmpty = false) :
  ∃ doc fill, job.writeServer parent endpoints = (addModule parent "server" false doc >>= fill)
    ∧ ∀ R, job.Allows R → ∀ m,
      (∀ host path operations backend, ∀ endpoint ∈ endpoints,
        Stays R (job.serveMethod host path operations (endpoint, backend))) →
      Stays R (fill m)
  := by
  rw [writeServer, if_neg (by simp [hne])]
  refine ⟨_, _, rfl, ?_⟩
  intro R hR m hserve
  apply hR.bind (hR.pathOf m)
  intro path
  apply hR.bind (hR.pathOf parent)
  intro surface
  apply hR.bind (hR.backends _ _ _)
  intro backends
  apply hR.bind
  · apply hR.mapM
    rintro ⟨endpoint, backend⟩ hserved
    obtain ⟨found, hfound, heq⟩ := List.mem_filterMap.mp hserved
    obtain ⟨_, -, heq⟩ := Option.map_eq_some_iff.mp heq
    obtain ⟨rfl, rfl⟩ := Prod.mk.inj heq
    apply hserve _ _ _ _ _ hfound
  · intro methods
    apply hR.write

namespace AllowsModules

variable (hR : job.AllowsModules R)
include hR

theorem writeRouter (parent : ModuleId) (endpoints : List Endpoint) :
  Stays R (Job.writeRouter parent endpoints)
  := by
  obtain ⟨doc, fill, heq, hfill⟩ := job.writeRouter_eq parent endpoints
  rw [heq]
  apply hR.bind (hR.addModule _ _ _ _) (hfill R hR.toAllows)

theorem writeEndpoints (parent : ModuleId) {endpoints : List Endpoint}
    (hsplit : ∀ endpoint ∈ endpoints, Stays R
      (job.splitReturn endpoint.http.operation.container endpoint.operation)) :
  Stays R (job.writeEndpoints parent endpoints)
  := by
  obtain ⟨doc, fill, heq, hfill⟩ := job.writeEndpoints_eq parent endpoints
  rw [heq]
  apply hR.bind (hR.addModule _ _ _ _)
  intro m
  apply hfill R hR.toAllows m _ hsplit
  intro name doc
  apply hR.addModule

/-- The server holds to a relation that the calls hold to. -/
theorem writeServer (parent : ModuleId) {endpoints : List Endpoint}
    (hserve : ∀ host path operations backend, ∀ endpoint ∈ endpoints,
      Stays R (job.serveMethod host path operations (endpoint, backend))) :
  Stays R (job.writeServer parent endpoints)
  := by
  cases hempty : endpoints.isEmpty with
  | true =>
      rw [Job.writeServer, if_pos hempty]
      apply hR.pure
  | false =>
      obtain ⟨doc, fill, heq, hfill⟩ := job.writeServer_eq parent hempty
      rw [heq]
      apply hR.bind (hR.addModule _ _ _ _)
      intro m
      apply hfill R hR.toAllows m hserve

theorem writeSurface (http : HttpService)
    (hsplit : ∀ endpoint ∈ (Endpoint.collect job.graph http).1, Stays R
      (job.splitReturn endpoint.http.operation.container endpoint.operation))
    (hserve : ∀ host path operations backend, ∀ endpoint ∈ (Endpoint.collect job.graph http).1,
      Stays R (job.serveMethod host path operations (endpoint, backend))) :
  Stays R (job.writeSurface http)
  := by
  apply hR.bind (hR.addModule _ _ _ _)
  intro m
  apply hR.bind (hR.reportProblems http)
  intro _
  apply hR.bind (hR.forM fun endpoint _ => hR.request _)
  intro _
  apply hR.bind (hR.writeCredential (fun _ _ => hR.addModule _ _ _ _) _)
  intro _
  apply hR.bind (hR.writeRouter m _)
  intro _
  apply hR.bind (hR.writeEndpoints m hsplit)
  intro _
  apply hR.writeServer m hserve

end AllowsModules

/-! ### What is drafted by itself -/

variable (job)

/-- Whether a relation holds along the handing out and writing of what waits. -/
structure Completes (R : Draft → Draft → Prop) : Prop extends Composes R where
  declaration : ∀ {d : Draft} {declaration : DeclarationRef} {rest : Worklist DeclarationRef},
    d.declarations.take? = some (declaration, rest) →
    R d (exec (job.writeDeclaration declaration) { d with declarations := rest }).2
  synthetic : ∀ {d : Draft} {synthetic : Synthetic} {rest : List Synthetic},
    d.synthetics = synthetic :: rest →
    R d (exec (job.writeSynthetic synthetic) { d with synthetics := rest }).2

/-- Whether a relation holds along what a session does by itself: besides that, it takes steady
steps, requests declarations and writes the surface and the root module. -/
structure Drives (R : Draft → Draft → Prop) : Prop extends Completes job R where
  steady : ∀ {α : Type} {x : Drafting α}, Steady job.graph x → Stays R x
  request : ∀ declaration, Stays R (request declaration)
  surface : ∀ http, Stays R (job.writeSurface http)
  root : ∀ m, Stays R (job.writeRoot m)

namespace Completes

variable {job} {R : Draft → Draft → Prop} (hR : job.Completes R)
include hR

/-- After what a session does at once, the rest goes on. -/
theorem bind_from {α : Type} {x : Drafting α} {f : α → Drafting Unit} {c d : Draft}
    (hx : R c (exec x d).2) (hf : ∀ a, Stays R (f a)) :
  R c (exec (x >>= f) d).2
  := by
  rw [exec_bind]
  rcases hexec : exec x d with ⟨outcome, e⟩
  rw [hexec] at hx
  cases outcome with
  | ok a => apply hR.trans hx (hf a e)
  | error error => apply hx

/-- What waits is handed out and written step by step. -/
theorem completeWithin (limit : Nat) : Stays R (job.completeWithin limit) := by
  induction limit with
  | zero => apply hR.pure
  | succ limit ih =>
      intro d
      rw [Job.completeWithin, exec_get_bind]
      split
      case h_1 declaration rest htake =>
        apply hR.bind_from (hR.declaration htake)
        intro _
        apply ih
      case h_2 =>
        split
        case h_1 => apply hR.refl
        case h_2 synthetic rest hqueue =>
          apply hR.bind_from (hR.synthetic hqueue)
          intro _
          apply ih

theorem complete : Stays R job.complete := fun d => hR.completeWithin _ d

end Completes

theorem Drives.run {R : Draft → Draft → Prop} (hR : job.Drives R) : Stays R job.run := by
  apply hR.bind (hR.steady (job.place_steady _))
  intro m
  apply hR.bind (hR.forM fun declaration _ => hR.request declaration)
  intro _
  apply hR.bind hR.complete
  intro _
  dsimp only
  split
  case h_1 http _ =>
    split
    case isTrue =>
      apply hR.bind (hR.surface http)
      intro _
      apply hR.bind hR.complete
      intro _
      apply hR.root
    case isFalse => apply hR.root
  case h_2 => apply hR.root

end Job

end ServiceBindings
