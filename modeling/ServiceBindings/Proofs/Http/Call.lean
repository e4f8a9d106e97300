import ServiceBindings.Proofs.Http.Emission

/-!
# Calls and the methods that they are for

The trait of a container and the server go through the parameters of an operation independently.
The method that the trait declares and the call that the server makes for an endpoint have the
arguments that the parameters of the operation give, the required ones in their order and the
optional ones in a struct.  If a parameter of the operation is bound to nothing, then nothing is
called, and that is reported once.
-/

namespace ServiceBindings

open Draft Drafting

/-! ### Bound parameters -/

namespace Endpoint

/-- The parameter of an endpoint that a parameter of its operation is bound to. -/
def bound? (graph : TypeGraph) (endpoint : Endpoint) (parameter : Field) : Option HttpParameter :=
  (endpoint.parameters graph).find? fun bound => bound.name = parameter.name

/-- Whether a parameter of an operation is bound to one that may be absent. -/
def mayLack (graph : TypeGraph) (endpoint : Endpoint) (parameter : Field) : Bool :=
  (endpoint.bound? graph parameter).any (·.optional)

/-- The first of some parameters that is bound to nothing. -/
def unbound? (graph : TypeGraph) (endpoint : Endpoint) (parameters : List Field) : Option Field :=
  parameters.find? fun parameter => (endpoint.bound? graph parameter).isNone

theorem unbound?_eq_none_iff {graph : TypeGraph} {endpoint : Endpoint} {parameters : List Field} :
  endpoint.unbound? graph parameters = none
    ↔ ∀ parameter ∈ parameters, ∃ bound ∈ endpoint.parameters graph, bound.name = parameter.name
  := by
  simp [unbound?, bound?]

/-- The problem of a parameter that is bound to nothing. -/
def unboundProblem (endpoint : Endpoint) (parameter : Field) : Diagnostic :=
  Diagnostic.make .unboundParameter endpoint.http.span (some parameter.name)
    ["`" ++ endpoint.operation.name ++ "` serves `" ++ endpoint.signature ++ "`"]

end Endpoint

/-! ### Calls and methods -/

/-- The expression that a call passes for a required parameter of a type: the bound value, taken out
if it may be absent, and borrowed if the type is a reference. -/
def requiredValue (host type : String) (parameter : Field) (absent : Bool) : String :=
  let value := "parameters." ++ Identifier.valueName parameter.name
  let given :=
    if absent then
      host ++ "::required(" ++ value ++ ", " ++ Text.quoted parameter.name ++ ")?"
    else value
  if type.toList.head? = some '&' then "&" ++ given else given

/-- The expression that a call gives for an optional parameter: the bound value, which is present
unless it may be absent. -/
def optionalValue (parameter : Field) (absent : Bool) : String :=
  let value := "parameters." ++ Identifier.valueName parameter.name
  if absent then value else "Some(" ++ value ++ ")"

/-- The argument for a parameter of an operation, if its method has types for the parameters and
some of them may be absent. -/
def argumentFor (host : String) (type : Field → String) (absent : Field → Bool)
    (parameter : Field) : CallArgument :=
  if parameter.optional then
    .optional (Identifier.valueName parameter.name) (optionalValue parameter (absent parameter))
  else .required (requiredValue host (type parameter) parameter (absent parameter))

namespace Job

variable {job : Job} {d e : Draft} {endpoint : Endpoint}

/-- The parameters of an operation that carry information and have to be given. -/
def required (job : Job) (operation : Operation) : List Field :=
  (job.informative operation).filter (!·.optional)

/-- The parameters of an operation that carry information and may be left out. -/
def optional (job : Job) (operation : Operation) : List Field :=
  (job.informative operation).filter (·.optional)

/-- An item of a list has a partner in a list that goes with it. -/
theorem mem_zip_of_forall₂ {α β : Type} {R : α → β → Prop} {items : List α} {others : List β}
    (h : List.Forall₂ R items others) {a : α} (ha : a ∈ items) :
  ∃ b, (a, b) ∈ items.zip others ∧ R a b
  := by
  have hmap : (items.zip others).map Prod.fst = items := List.map_fst_zip (Nat.le_of_eq h.length_eq)
  rw [← hmap] at ha
  obtain ⟨⟨a, b⟩, hpair, rfl⟩ := List.mem_map.mp ha
  exact ⟨b, hpair, List.forall₂_zip h hpair⟩

/-- What is found for some items only is found for those that pass a test. -/
theorem filterMap_eq_map_filter {α β : Type} {f : α → Option β} {test : α → Bool} {g : α → β}
    (h : ∀ a, f a = if test a then some (g a) else none) (items : List α) :
  items.filterMap f = (items.filter test).map g
  := by
  induction items with
  | nil => rfl
  | cons a items ih =>
      rw [List.filterMap_cons, h, ih, List.filter_cons]
      cases test a <;> rfl

/-- The argument for a parameter is settled with the type of the parameter. -/
theorem callArgument_settled {host operation : String} {backend : Backend} {parameter : Field}
    {bound : HttpParameter} {argument : CallArgument} (hd : Placed d)
    (h : Settled (job.callArgument host backend operation parameter bound) d argument) :
  parameter.optional = true ∧ argument
      = .optional (Identifier.valueName parameter.name) (optionalValue parameter bound.optional)
    ∨ parameter.optional = false ∧ ∃ type, Settled (job.spell parameter.type parameter.span .param
        backend.module (parameterTypeName operation parameter.name)) d type
      ∧ argument = .required (requiredValue host type parameter bound.optional)
  := by
  unfold callArgument at h
  dsimp only at h
  cases hoptional : parameter.optional with
  | true =>
      rw [hoptional, if_pos rfl] at h
      exact Or.inl ⟨rfl, h.eq (Settled.pure _ d)⟩
  | false =>
      rw [hoptional, if_neg Bool.false_ne_true] at h
      exact Or.inr ⟨rfl, (job.spell_steady _ _ _ _ _).toSettles.of_bind_pure hd h⟩

/-! ### What the server calls -/

theorem callArguments_cons (host : String) (backend : Backend) (parameter : Field)
    (rest : List Field) :
  job.callArguments host backend endpoint (parameter :: rest)
    = match endpoint.bound? job.graph parameter with
      | none => report (endpoint.unboundProblem parameter) >>= fun _ =>
          pure (.error parameter.name)
      | some bound => job.callArgument host backend endpoint.operation.name parameter bound
          >>= fun argument => job.callArguments host backend endpoint rest
          >>= fun arguments => pure (arguments.map (argument :: ·))
  := rfl

/-- Whether an argument is settled for a parameter of the operation of an endpoint. -/
def SettlesArgument (job : Job) (d : Draft) (host : String) (backend : Backend)
    (endpoint : Endpoint) (parameter : Field) (argument : CallArgument) : Prop :=
  ∃ bound, endpoint.bound? job.graph parameter = some bound
    ∧ Settled (job.callArgument host backend endpoint.operation.name parameter bound) d argument

/-- The arguments for parameters are found one by one, until one is bound to nothing. -/
theorem callArguments_settled {host : String} {backend : Backend} {parameters : List Field}
    {result : Except String (List CallArgument)} (hd : Placed d)
    (h : Settled (job.callArguments host backend endpoint parameters) d result) :
  (∃ parameter, endpoint.unbound? job.graph parameters = some parameter
      ∧ result = .error parameter.name)
    ∨ endpoint.unbound? job.graph parameters = none ∧ ∃ arguments, result = .ok arguments
      ∧ List.Forall₂ (job.SettlesArgument d host backend endpoint) parameters arguments
  := by
  induction parameters generalizing result with
  | nil =>
      obtain rfl := h.eq (Settled.pure _ d)
      exact Or.inr ⟨rfl, [], rfl, .nil⟩
  | cons parameter rest ih =>
      rw [callArguments_cons] at h
      cases hbound : endpoint.bound? job.graph parameter with
      | none =>
          rw [hbound] at h
          obtain ⟨_, -, rfl⟩ := (@Settles.report job.graph _).of_bind_pure hd h
          refine Or.inl ⟨parameter, ?_, rfl⟩
          apply List.find?_cons_of_pos
          rw [hbound]
          rfl
      | some bound =>
          have hrest := job.callArguments_settles host backend endpoint rest
          rw [hbound] at h
          obtain ⟨argument, hargument, h⟩ :=
            (job.callArgument_steady _ _ _ _ _).toSettles.of_bind
              (fun _ => hrest.bind_pure _) hd h
          obtain ⟨others, hothers, rfl⟩ := hrest.of_bind_pure hd h
          have hskip : endpoint.unbound? job.graph (parameter :: rest)
              = endpoint.unbound? job.graph rest := by
            apply List.find?_cons_of_neg
            simp [hbound]
          rw [hskip]
          rcases ih hothers with ⟨unbound, hunbound, rfl⟩ | ⟨hnone, arguments, rfl, harguments⟩
          · exact Or.inl ⟨unbound, hunbound, rfl⟩
          · exact Or.inr ⟨hnone, argument :: arguments, rfl,
              .cons ⟨bound, hbound, hargument⟩ harguments⟩

/-- An endpoint fails if a parameter of its operation is bound to nothing, and else calls the method
with an argument for each parameter. -/
theorem serveAction_settled {host : String} {path : ModulePath} {backend : Backend}
    {action : ServeAction} (hd : Placed d)
    (hoperation : endpoint.operation ∈ job.graph.operations endpoint.http.operation.container)
    (h : Settled (job.serveAction host path backend endpoint) d action) :
  (∃ parameter, endpoint.unbound? job.graph (job.informative endpoint.operation) = some parameter
      ∧ action = .unbound parameter.name)
    ∨ endpoint.unbound? job.graph (job.informative endpoint.operation) = none
      ∧ ∃ arguments split, List.Forall₂ (job.SettlesArgument d host backend endpoint)
        (job.informative endpoint.operation) arguments
      ∧ Settled (job.splitReturn endpoint.http.operation.container endpoint.operation) d split
      ∧ action = .call (ServeCall.ofArguments endpoint.operation.name
          (path.itemReference backend.module
            (Code.optionsTypeName backend.traitName endpoint.operation.name)) arguments)
        (job.successAnswer endpoint split.success)
  := by
  have hsplit := (job.splitReturn_steady hoperation).toSettles
  obtain ⟨result, hresult, h⟩ := (job.callArguments_settles _ _ _ _).of_bind (fun result => by
    cases result with
    | error parameter => apply Settles.pure
    | ok arguments => apply hsplit.bind_pure) hd h
  rcases callArguments_settled hd hresult with
    ⟨parameter, hparameter, rfl⟩ | ⟨hnone, arguments, rfl, harguments⟩
  · exact Or.inl ⟨parameter, hparameter, h.eq (Settled.pure _ d)⟩
  · obtain ⟨split, hknown, rfl⟩ := hsplit.of_bind_pure hd h
    exact Or.inr ⟨hnone, arguments, split, harguments, hknown, rfl⟩

/-- The arguments that are settled are those for the types of the parameters. -/
theorem arguments_eq {host : String} {backend : Backend} {type : Field → String}
    {parameters : List Field} {arguments : List CallArgument} (hd : Placed d)
    (htype : ∀ parameter ∈ parameters, Settled (job.spell parameter.type parameter.span
      (if parameter.optional then .owned else .param) backend.module
      (parameterTypeName endpoint.operation.name parameter.name)) d (type parameter))
    (h : List.Forall₂ (job.SettlesArgument d host backend endpoint) parameters arguments) :
  arguments = parameters.map (argumentFor host type (endpoint.mayLack job.graph))
  := by
  induction h with
  | nil => rfl
  | @cons parameter argument parameters arguments hargument _ ih =>
      obtain ⟨htype, htypes⟩ := List.forall_mem_cons.mp htype
      obtain ⟨bound, hbound, hargument⟩ := hargument
      rw [List.map_cons, ← ih htypes, argumentFor, Endpoint.mayLack, hbound, Option.any_some]
      rcases callArgument_settled hd hargument with
        ⟨hoptional, rfl⟩ | ⟨hoptional, spelling, hspelling, rfl⟩
      · rw [if_pos hoptional]
      · rw [hoptional, if_neg Bool.false_ne_true] at htype ⊢
        rw [hspelling.eq htype]

/-! ### Traits -/

/-- Whether a module holds the trait of a container: it has a method for each operation. -/
structure HoldsTrait (job : Job) (d : Draft) (container : Container) (m : ModuleId)
    (trait : Code.TraitDecl) : Prop where
  place : ∃ id, container.declaration.owner? job.graph = some id ∧ d.moduleOf? id = some m
  name : Settled (job.traitName container) d trait.name
  methods : List.Forall₂ (fun operation method =>
      Settled (job.method container trait.name (d.modules.path m) operation) d method)
    (job.graph.operations container) trait.methods
  text : d.HoldsLines m trait.lines

/-- A trait that was put together for a module has a method for each operation. -/
theorem traitDecl_eq_ok {container : Container} {name : String} {doc : Option String}
    {m : ModuleId} {trait : Code.TraitDecl} {d₁ : Draft} {problems : List Diagnostic}
    (hd : Placed d) (hd₁ : Placed d₁) (hm : m.index < d₁.modules.size)
    (h : exec (job.traitDecl container name doc (d₁.modules.path m)) d₁
      = (.ok trait, d.reported problems)) :
  trait.name = name ∧ List.Forall₂ (fun operation method =>
      Settled (job.method container name (d.modules.path m) operation) d method)
    (job.graph.operations container) trait.methods
  := by
  have hlater := ((job.traitDecl_steady _ _ _ _).growth h).later
  have hpath : d.modules.path m = d₁.modules.path m := hlater.path m hm
  rw [hpath]
  have hsettled := Settled.of_reported ((job.traitDecl_steady _ _ _ _).settled hd₁ h)
  have hsteady : ∀ operation ∈ job.graph.operations container, Steady job.graph
      (job.method container name (d₁.modules.path m) operation) :=
    fun operation hoperation => job.method_steady name _ hoperation
  obtain ⟨methods, hmethods, rfl⟩ := (Steady.mapM hsteady).toSettles.of_bind_pure hd hsettled
  exact ⟨rfl, Steady.of_mapM hsteady hd hmethods⟩

/-- The lines of a container with an operation are those of its trait. -/
theorem render_container {container : Container} {operation : Operation} {m : ModuleId}
    {lines : List String} (hd : Placed d)
    (hoperation : operation ∈ job.graph.operations container)
    (h : Settled (job.render container.declaration) d (m, lines)) :
  ∃ trait : Code.TraitDecl, lines = trait.lines ∧ Settled (job.traitName container) d trait.name
    ∧ List.Forall₂ (fun operation method =>
        Settled (job.method container trait.name (d.modules.path m) operation) d method)
      (job.graph.operations container) trait.methods
  := by
  obtain ⟨problems, hexec⟩ := h d (Later.refl d)
  cases container with
  | group id =>
      obtain ⟨found, d₁, hplace, hexec⟩ := exec_bind_eq_ok.mp hexec
      rw [exec_bind_of_ok (exec_pathOf found d₁)] at hexec
      obtain ⟨trait, d₂, htrait, hreturn⟩ := exec_bind_eq_ok.mp hexec
      cases hreturn
      have hd₁ := ((job.place_steady id).growth hplace).placed hd
      have hm := hd₁.place_lt id m (job.place_eq_ok hd.global hplace)
      obtain ⟨hname, hmethods⟩ := traitDecl_eq_ok hd hd₁ hm htrait
      use trait, rfl
      rw [hname]
      exact ⟨Settled.pure _ d, hmethods⟩
  | interface id =>
      obtain ⟨name, d₁, hname, hexec⟩ := exec_bind_eq_ok.mp hexec
      obtain ⟨found, d₂, hplace, hexec⟩ := exec_bind_eq_ok.mp hexec
      rw [exec_bind_of_ok (exec_pathOf found d₂)] at hexec
      obtain ⟨rendered, d₃, hlines, hreturn⟩ := exec_bind_eq_ok.mp hexec
      cases hreturn
      have hnames := job.declarationName_steady id
      have hd₁ := (hnames.growth hname).placed hd
      have hd₂ := ((job.placeOf_steady id).growth hplace).placed hd₁
      obtain ⟨owner, -, howner⟩ := job.placeOf_eq_ok hd₁.global hplace
      rw [TypeGraph.operations] at hoperation
      split at hoperation
      case h_1 hkind =>
        rw [typeLines, hkind] at hlines
        obtain ⟨trait, d₄, htrait, hreturn⟩ := exec_bind_eq_ok.mp hlines
        cases hreturn
        obtain ⟨rfl, hmethods⟩ := traitDecl_eq_ok hd hd₂ (hd₂.place_lt owner m howner) htrait
        have hlater := ((job.placeOf_steady id).growth hplace).trans
          ((job.traitDecl_steady _ _ _ _).growth htrait)
        refine ⟨trait, rfl, ?_, hmethods⟩
        apply Settled.of_reported ((hnames.settled hd hname).later (Growth.later hlater))
      case h_2 => cases hoperation

/-- A run that succeeds has written the trait of each container that was asked for. -/
theorem run_holdsTrait (hlinked : job.graph.Linked) {draft : Draft}
    (hrun : exec job.run .start = (.ok (), draft)) {container : Container} {operation : Operation}
    (hoperation : operation ∈ job.graph.operations container)
    (haccepted : container.declaration ∈ draft.declarations.items) :
  ∃ m trait, job.HoldsTrait draft container m trait
  := by
  obtain ⟨hd, ⟨hpending, -⟩, declared, written, hlogged, haccounted⟩ :=
    job.run_logged hlinked hrun
  rw [← Worklist.taken_append_pending, hpending, List.append_nil, ← haccounted.taken]
    at haccepted
  obtain ⟨⟨declaration, m, lines⟩, hentry, hdeclaration⟩ := List.mem_map.mp haccepted
  obtain rfl : declaration = container.declaration := hdeclaration
  obtain ⟨trait, rfl, hname, hmethods⟩ :=
    render_container hd.toPlaced hoperation (hlogged.rendered _ hentry)
  obtain ⟨id, howner, hplace⟩ := hlogged.placed _ hentry
  refine ⟨m, trait, ⟨id, howner, hplace⟩, hname, hmethods, Text.unlines trait.lines, ?_,
    Text.isTextOf_unlines trait.lines⟩
  rw [hlogged.texts m (fun hfree => hfree.not_placed id hplace) (hd.place_ne id m hplace).2]
  apply List.mem_map.mpr
  use (container.declaration, m, trait.lines)
  simpa using hentry

/-- Whether a method is the one of an operation: it has a parameter for each one that carries
information, and returns the two sides. -/
structure IsMethod (job : Job) (d : Draft) (container : Container) (trait : String)
    (path : ModulePath) (operation : Operation) (declared : Code.Method) : Prop where
  name : declared.name = Code.methodName operation.name
  optionsMethod : declared.optionsMethod = Code.optionsMethodName operation.name
  optionsType : declared.optionsType = Code.optionsTypeName trait operation.name
  parameters : ∃ type : Field → String,
    (∀ parameter ∈ job.informative operation, Settled (job.spell parameter.type parameter.span
      (if parameter.optional then .owned else .param) path
      (parameterTypeName operation.name parameter.name)) d (type parameter))
    ∧ declared.required = (job.required operation).map
      (fun parameter => (Identifier.valueName parameter.name, type parameter))
    ∧ declared.optional = (job.optional operation).map fun parameter =>
      ⟨parameter.doc, Identifier.valueName parameter.name, type parameter⟩
  result : ∃ split success error, Settled (job.splitReturn container operation) d split
    ∧ Settled (job.spellSide split.success path) d success
    ∧ Settled (job.spellSide split.error path) d error
    ∧ declared.result = "impl " ++ job.config.host "OperationFuture" ++ "<" ++ success
      ++ ", Self::Error<" ++ error ++ ">>"

/-- The parameters of a method are settled with their types. -/
theorem methodParameters_settled {operation : String} {path : ModulePath} {parameters : List Field}
    {declared : List (Sum (String × String) Code.OptionalParameter)} (hd : Placed d)
    (h : List.Forall₂ (fun parameter result =>
      Settled (job.methodParameter operation path parameter) d result) parameters declared) :
  ∃ type : Field → String,
    (∀ parameter ∈ parameters, Settled (job.spell parameter.type parameter.span
      (if parameter.optional then .owned else .param) path
      (parameterTypeName operation parameter.name)) d (type parameter))
    ∧ declared = parameters.map fun parameter =>
      if parameter.optional then
        .inr ⟨parameter.doc, Identifier.valueName parameter.name, type parameter⟩
      else .inl (Identifier.valueName parameter.name, type parameter)
  := by
  have hspelled : ∀ parameter ∈ parameters, ∃ type, Settled (job.spell parameter.type
      parameter.span (if parameter.optional then .owned else .param) path
      (parameterTypeName operation parameter.name)) d type := by
    intro parameter hparameter
    obtain ⟨result, -, hresult⟩ := mem_zip_of_forall₂ h hparameter
    obtain ⟨type, htype, -⟩ := (job.spell_steady _ _ _ _ _).toSettles.of_bind_pure hd hresult
    exact ⟨type, htype⟩
  choose! type htype using hspelled
  refine ⟨type, htype, ?_⟩
  induction h with
  | nil => rfl
  | cons hresult _ ih =>
      obtain ⟨hfirst, hrest⟩ := List.forall_mem_cons.mp htype
      obtain ⟨found, hfound, rfl⟩ := (job.spell_steady _ _ _ _ _).toSettles.of_bind_pure hd hresult
      rw [List.map_cons, ← ih hrest, hfound.eq hfirst]

theorem method_settled {container : Container} {trait : String} {path : ModulePath}
    {operation : Operation} {declared : Code.Method} (hd : Placed d)
    (hoperation : operation ∈ job.graph.operations container)
    (h : Settled (job.method container trait path operation) d declared) :
  job.IsMethod d container trait path operation declared
  := by
  have hside (side : ReturnSide) := (job.spellSide_steady side path).toSettles
  have hparameter : ∀ parameter ∈ job.informative operation,
      Steady job.graph (job.methodParameter operation.name path parameter) :=
    fun parameter _ => job.methodParameter_steady _ _ _
  have hparameters := (Steady.mapM hparameter).toSettles
  obtain ⟨split, hsplit, h⟩ := (job.splitReturn_steady hoperation).toSettles.of_bind
    (fun _ => (hside _).bind fun _ => (hside _).bind fun _ => hparameters.bind_pure _) hd h
  obtain ⟨success, hsuccess, h⟩ := (hside _).of_bind
    (fun _ => (hside _).bind fun _ => hparameters.bind_pure _) hd h
  obtain ⟨error, herror, h⟩ := (hside _).of_bind (fun _ => hparameters.bind_pure _) hd h
  obtain ⟨parameters, hsettled, rfl⟩ := hparameters.of_bind_pure hd h
  constructor <;> dsimp only
  case parameters =>
    obtain ⟨type, htype, rfl⟩ := methodParameters_settled hd (Steady.of_mapM hparameter hd hsettled)
    refine ⟨type, htype, ?_, ?_⟩
    · rw [List.filterMap_map]
      apply filterMap_eq_map_filter
      intro parameter
      cases hoptional : parameter.optional <;> simp [hoptional]
    · rw [List.filterMap_map]
      apply filterMap_eq_map_filter
      intro parameter
      cases hoptional : parameter.optional <;> simp [hoptional]
  case result => exact ⟨split, success, error, hsplit, hsuccess, herror, rfl⟩

/-- A backend and the trait of its container agree on the module and on the name. -/
theorem IsBackend.agrees {path : ModulePath} {backend : Backend} {m : ModuleId}
    {trait : Code.TraitDecl} (h : job.IsBackend d path backend)
    (htrait : job.HoldsTrait d backend.container m trait) :
  backend.module = d.modules.path m ∧ backend.traitName = trait.name
  := by
  obtain ⟨id, howner, hplace⟩ := htrait.place
  obtain ⟨id', m', howner', hplace', hmodule⟩ := h.module
  rw [howner] at howner'
  cases howner'
  rw [hplace] at hplace'
  cases hplace'
  exact ⟨hmodule.symm, h.traitName.eq htrait.name⟩

end Job

/-! ### Reports of unbound parameters -/

/-- The problems of a draft that are about unbound parameters. -/
def Draft.unboundProblems (d : Draft) : List Diagnostic :=
  d.diagnostics.filter fun problem => problem.kind = .unboundParameter

/-- Only the calls of the server report unbound parameters. -/
theorem Drafting.follows_unboundProblems (graph : TypeGraph) :
  Follows graph fun d e => e.unboundProblems = d.unboundProblems where
  refl _ := rfl
  trans hcd hde := hde.trans hcd
  steady h d := by
    obtain ⟨problems, hproblems, hkinds⟩ := h.reports d
    have hnone : problems.filter (fun problem => problem.kind = .unboundParameter) = [] := by
      rw [List.filter_eq_nil_iff]
      intro problem hproblem hkind
      have hspelling := hkinds problem hproblem
      rw [of_decide_eq_true hkind] at hspelling
      revert hspelling
      decide
    rw [unboundProblems, hproblems, List.filter_append, hnone, List.append_nil]
    rfl
  turn h := by
    cases h with
    | report hkind => simp [unboundProblems, hkind]
    | _ => rfl

namespace Job

variable {job : Job} {d e : Draft} {endpoint : Endpoint}

/-- The problem of an endpoint whose operation has a parameter that is bound to nothing. -/
def unboundProblem? (job : Job) (endpoint : Endpoint) : Option Diagnostic :=
  (endpoint.unbound? job.graph (job.informative endpoint.operation)).map endpoint.unboundProblem

theorem callArguments_reports {host : String} {backend : Backend} {parameters : List Field}
    {result : Except String (List CallArgument)}
    (h : exec (job.callArguments host backend endpoint parameters) d = (.ok result, e)) :
  e.unboundProblems = d.unboundProblems
    ++ ((endpoint.unbound? job.graph parameters).map endpoint.unboundProblem).toList
  := by
  have hsame := follows_unboundProblems job.graph
  induction parameters generalizing d result with
  | nil =>
      cases h
      simp [Endpoint.unbound?]
  | cons parameter rest ih =>
      rw [callArguments_cons] at h
      rw [Endpoint.unbound?, List.find?_cons]
      cases hbound : endpoint.bound? job.graph parameter with
      | none =>
          rw [hbound] at h
          cases h
          simp [unboundProblems, Endpoint.unboundProblem, Diagnostic.make]
      | some bound =>
          rw [hbound] at h
          obtain ⟨argument, d₁, -, hfirst, h⟩ :=
            (hsame.steady (job.callArgument_steady _ _ _ _ _)).exec_bind h
          obtain ⟨others, d₂, hothers, hreturn⟩ := exec_bind_eq_ok.mp h
          cases hreturn
          rw [ih hothers, hfirst]
          rfl

/-- Finding the method of an endpoint reports its unbound parameter, if there is one. -/
theorem serveMethod_reports {host : String} {path endpoints : ModulePath} {backend : Backend}
    {method : ServeMethod}
    (h : exec (job.serveMethod host path endpoints (endpoint, backend)) d = (.ok method, e)) :
  e.unboundProblems = d.unboundProblems ++ (job.unboundProblem? endpoint).toList
  := by
  obtain ⟨action, d', haction, hreturn⟩ := exec_bind_eq_ok.mp h
  cases hreturn
  obtain ⟨result, d₁, hresult, h⟩ := exec_bind_eq_ok.mp haction
  rw [unboundProblem?, ← callArguments_reports hresult]
  cases result with
  | error parameter =>
      cases h
      rfl
  | ok arguments =>
      apply Stays.exec _ h
      apply (follows_unboundProblems job.graph).bind
      · apply splitReturn_stays (follows_unboundProblems job.graph).tracks
      · intro split
        apply (follows_unboundProblems job.graph).pure

theorem serveMethods_report {host : String} {path operations : ModulePath}
    {pairs : List (Endpoint × Backend)} {methods : List ServeMethod}
    (h : exec (pairs.mapM (job.serveMethod host path operations)) d = (.ok methods, e)) :
  e.unboundProblems = d.unboundProblems ++ (pairs.map (·.1)).filterMap job.unboundProblem?
  := by
  induction pairs generalizing d methods with
  | nil =>
      rw [List.mapM_nil] at h
      cases h
      simp
  | cons pair pairs ih =>
      obtain ⟨endpoint, backend⟩ := pair
      rw [List.mapM_cons] at h
      obtain ⟨method, d₁, hmethod, h⟩ := exec_bind_eq_ok.mp h
      obtain ⟨others, d₂, hothers, hreturn⟩ := exec_bind_eq_ok.mp h
      cases hreturn
      rw [ih hothers, serveMethod_reports hmethod, List.append_assoc, List.map_cons,
        List.filterMap_cons]
      cases job.unboundProblem? endpoint with
      | none => rfl
      | some problem => rfl

/-- Writing the server reports an unbound parameter for each endpoint that has one. -/
theorem writeServer_reports {parent : ModuleId} {endpoints : List Endpoint}
    (h : exec (job.writeServer parent endpoints) d = (.ok (), e)) :
  e.unboundProblems = d.unboundProblems ++ endpoints.filterMap job.unboundProblem?
  := by
  have hsame := follows_unboundProblems job.graph
  by_cases hendpoints : endpoints = []
  · subst hendpoints
    cases h
    simp
  · obtain ⟨m, d₁, backends, d₂, methods, d₃, hmodule, hbackends, hserved, hmethods, hwrite⟩ :=
      writeServer_steps hendpoints h
    calc e.unboundProblems
        = d₃.unboundProblems := (hsame.write m _).exec hwrite
      _ = d₂.unboundProblems ++ endpoints.filterMap job.unboundProblem? := by
        rw [serveMethods_report hmethods, hserved]
      _ = d₁.unboundProblems ++ _ := by rw [(backends_stays hsame _ _ _).exec hbackends]
      _ = d.unboundProblems ++ _ := by rw [(hsame.addModule _ _ _ _).exec hmodule]

/-- The problems with unbound parameters that a run ends with are those of the endpoints, one for
each endpoint that has one. -/
theorem run_reports {draft : Draft} {http : HttpService}
    (hrun : exec job.run .start = (.ok (), draft)) (hhttp : job.service.http = some http)
    (hwanted : job.config.http = true) :
  draft.unboundProblems = (Endpoint.collect job.graph http).1.filterMap job.unboundProblem?
  := by
  have hsame := follows_unboundProblems job.graph
  obtain ⟨d₁, d₂, hbefore, h, hafter⟩ := run_surface hsame hhttp hwanted hrun
  obtain ⟨m, d₃, -, hmodule, h⟩ := (hsame.addModule _ _ _ _).exec_bind h
  obtain ⟨_, d₄, -, hreport, h⟩ := (reportProblems_stays hsame http).exec_bind h
  obtain ⟨_, d₅, -, hrequest, h⟩ := (requestContainers_stays hsame _).exec_bind h
  obtain ⟨_, d₆, -, hcredential, h⟩ := (writeCredential_stays hsame m _).exec_bind h
  obtain ⟨_, d₇, -, hrouter, h⟩ := (writeRouter_stays hsame m _).exec_bind h
  obtain ⟨_, d₈, -, hclients, hserver⟩ := (writeEndpoints_stays hsame m _).exec_bind h
  rw [hafter, writeServer_reports hserver, hclients, hrouter, hcredential, hrequest, hreport,
    hmodule, hbefore]
  rfl

end Job

end ServiceBindings
