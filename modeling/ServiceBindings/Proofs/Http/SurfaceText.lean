import ServiceBindings.Proofs.Code.TraitText
import ServiceBindings.Proofs.Draft.Spelling
import ServiceBindings.Proofs.Http.Call
import ServiceBindings.Proofs.Http.EndpointNames
import ServiceBindings.Proofs.Http.ServeText

/-!
# Reading the emitted surface

The texts that a run has written are read as what they say.  A method of the server is found again
among the lines of the server's module, and the methods of a trait among those of its module.  For
this, what the lines are put together from has to stand on one line each: names and spelled types
do, and the path of the host crate is asked to.
-/

namespace ServiceBindings

open Draft Drafting ModulePath Text

/-! ### Names and values -/

theorem Config.feed_not_mem_host {config : Config} (h : '\n' ∉ config.cratePath.toList)
    {path : String} (hpath : '\n' ∉ path.toList) :
  '\n' ∉ (config.host path).toList
  := by
  simp [host, h, hpath]

theorem Endpoint.isToken_serveName {endpoint : Endpoint} (h : endpoint.name.Parsed) :
  IsToken endpoint.serveName :=
  IsToken.append (by decide) (Identifier.isToken_dropRaw (isToken_moduleName h))

theorem Endpoint.isToken_of_mem_pathFields {endpoint : Endpoint} {field : String}
    (h : field ∈ endpoint.pathFields) :
  IsToken field
  := by
  obtain ⟨name, -, rfl⟩ := List.mem_map.mp (List.mem_eraseDups.mp h)
  apply Identifier.isToken_valueName

/-- The expression that reads a parameter stands on one line. -/
theorem HttpParameter.feed_not_mem_extraction {host : String} (hhost : '\n' ∉ host.toList)
    (captured : List String) (parameter : HttpParameter) :
  '\n' ∉ (parameter.extraction host captured).toList
  := by
  have hname := feed_not_mem_quoted parameter.name
  have hcapture := (Endpoint.isToken_captureName
    (Identifier.isToken_valueName parameter.name)).feed
  have hnone : '\n' ∉ "None".toList := by decide
  unfold extraction
  dsimp only
  split
  case h_1 =>
    split
    case isTrue => split <;> simp [hhost, hname, hcapture]
    case isFalse =>
      split
      case isTrue => apply hnone
      case isFalse => simp [hhost, hname]
  case h_2 => split <;> simp [hhost, hname]
  case h_3 => split <;> simp [hhost, hname]
  case h_4 => split <;> simp [hhost, hname]

/-! ### Calls -/

/-- Whether what an argument is put together from stands on one line. -/
def CallArgument.IsFlat : CallArgument → Prop
  | required value => '\n' ∉ value.toList
  | optional field value => '\n' ∉ field.toList ∧ '\n' ∉ value.toList

theorem feed_not_mem_requiredValue {host : String} (hhost : '\n' ∉ host.toList) (type : String)
    (parameter : Field) (absent : Bool) :
  '\n' ∉ (requiredValue host type parameter absent).toList
  := by
  have hident := (Identifier.isToken_valueName parameter.name).feed
  have hname := feed_not_mem_quoted parameter.name
  unfold requiredValue
  dsimp only
  split <;> split <;> simp [hhost, hident, hname]

theorem feed_not_mem_optionalValue (parameter : Field) (absent : Bool) :
  '\n' ∉ (optionalValue parameter absent).toList
  := by
  have hident := (Identifier.isToken_valueName parameter.name).feed
  unfold optionalValue
  dsimp only
  split <;> simp [hident]

theorem Code.isToken_methodName (operation : String) : IsToken (methodName operation) :=
  Identifier.isToken_escape (Words.Parsed.parse operation).isToken_snake

theorem Code.isToken_optionsMethodName (operation : String) :
  IsToken (optionsMethodName operation) :=
  Identifier.isToken_escape ((Words.Parsed.parse operation).isToken_snake.append (by decide))

theorem Code.isToken_optionsTypeName {trait : String} (h : IsToken trait) (operation : String) :
  IsToken (optionsTypeName trait operation) :=
  (h.append (Words.Parsed.parse operation).isToken_pascal).append (by decide)

/-- The text of a call stands on one line. -/
theorem ServeCall.feed_not_mem_text {arguments : List CallArgument}
    (h : ∀ argument ∈ arguments, argument.IsFlat) (operation : String) {path : String}
    (hpath : '\n' ∉ path.toList) :
  '\n' ∉ (ofArguments operation path arguments).text.toList
  := by
  have hrequired : ∀ value ∈ arguments.filterMap CallArgument.required?, '\n' ∉ value.toList := by
    intro value hvalue
    obtain ⟨argument, hargument, heq⟩ := List.mem_filterMap.mp hvalue
    have hflat := h argument hargument
    cases argument with
    | required => cases heq; exact hflat
    | optional => cases heq
  have hgiven : ∀ text ∈ (arguments.filterMap CallArgument.optional?).map
      (fun field => field.1 ++ ": " ++ field.2), '\n' ∉ text.toList := by
    intro text htext
    obtain ⟨field, hfield, rfl⟩ := List.mem_map.mp htext
    obtain ⟨argument, hargument, heq⟩ := List.mem_filterMap.mp hfield
    have hflat := h argument hargument
    cases argument with
    | required => cases heq
    | optional => cases heq; simp [hflat.1, hflat.2]
  have htext {method : String} (hmethod : IsToken method) {options : List String}
      (hoptions : ∀ text ∈ options, '\n' ∉ text.toList) :
      '\n' ∉ (method ++ "(" ++ Code.commaSeparated
        (arguments.filterMap CallArgument.required? ++ options) ++ ")").toList := by
    have harguments := Code.feed_not_mem_commaSeparated
      (List.forall_mem_append.mpr ⟨hrequired, hoptions⟩)
    simp [hmethod.feed, harguments]
  unfold ofArguments
  dsimp only
  split
  case isTrue => apply htext (Code.isToken_methodName operation) (List.forall_mem_nil _)
  case isFalse =>
    apply htext (Code.isToken_optionsMethodName operation)
    simp [Code.inBraces, hpath, Code.feed_not_mem_commaSeparated hgiven]

/-! ### Methods of the server -/

/-- Whether lines of a module are the method of the server for an endpoint, as it is read. -/
def Draft.ReadsMethod (d : Draft) (m : ModuleId) (host : String) (endpoint : Endpoint)
    (reading : ServeReading) : Prop :=
  ∃ text ∈ d.modules.texts m, ∃ lines, Code.indent lines <:+: linesOf text
    ∧ ServeMethod.read? host endpoint.serveName lines = some reading

namespace Job

variable {job : Job} {d : Draft} {endpoint : Endpoint}

theorem SettlesArgument.isFlat {host : String} (hhost : '\n' ∉ host.toList) {backend : Backend}
    {parameter : Field} {argument : CallArgument} (hd : Placed d)
    (h : job.SettlesArgument d host backend endpoint parameter argument) :
  argument.IsFlat
  := by
  obtain ⟨bound, -, hargument⟩ := h
  rcases callArgument_settled hd hargument with ⟨-, rfl⟩ | ⟨-, type, -, rfl⟩
  · exact ⟨(Identifier.isToken_valueName parameter.name).feed,
      feed_not_mem_optionalValue parameter bound.optional⟩
  · apply feed_not_mem_requiredValue hhost

theorem isToken_traitName {container : Container} {name : String}
    (h : Settled (job.traitName container) d name) :
  IsToken name
  := by
  cases container with
  | group id =>
      have hgroup : name = job.groupTraitName id := h.eq (Settled.pure _ d)
      rw [hgroup]
      unfold groupTraitName
      dsimp only
      split
      case isTrue => decide
      case isFalse => apply Identifier.isToken_typeName
  | interface id =>
      obtain ⟨problems, h⟩ := h d (Later.refl d)
      apply isToken_declarationName h

/-- The reference from the server to an item in the module of a trait stands on one line. -/
theorem IsBackend.feed_not_mem_itemReference (hd : job.Session d) {path : ModulePath}
    {backend : Backend} (h : job.IsBackend d path backend) {item : String}
    (hitem : '\n' ∉ item.toList) :
  '\n' ∉ (path.itemReference backend.module item).toList
  := by
  obtain ⟨id, m, -, hplace, hpath⟩ := h.module
  rw [hd.anchored.place_path id m hplace] at hpath
  rw [← hpath]
  apply path.feed_not_mem_itemReference (job.graph.feed_not_mem_modulePath id) hitem

/-- What a method of the server is put together from stands on one line each. -/
theorem Serves.isLegible (hd : job.Session d) (hname : endpoint.name.Parsed)
    (hoperation : endpoint.operation ∈ job.graph.operations endpoint.http.operation.container)
    (hhost : '\n' ∉ (job.config.host "server").toList) {backend : Backend} {method : ServeMethod}
    (h : job.Serves d ⟨["http", "server"]⟩ backend endpoint method) :
  method.IsLegible
  := by
  have hplaced := Session.placed hd
  constructor
  case serveName =>
    rw [h.method_endpoint]
    apply (Endpoint.isToken_serveName hname).feed
  case captures =>
    rw [h.method_endpoint]
    intro field hfield
    apply (Endpoint.isToken_captureName (Endpoint.isToken_of_mem_pathFields hfield)).feed
  case parametersPath =>
    rw [h.method_path]
    apply feed_not_mem_itemReference _ _ (by decide)
    simp only [List.forall_mem_cons]
    exact ⟨by decide, by decide, (Endpoint.isToken_moduleName hname).feed, List.forall_mem_nil _⟩
  case fields =>
    rw [h.method_fields]
    intro field hfield
    obtain ⟨parameter, -, rfl⟩ := List.mem_map.mp hfield
    exact ⟨(Identifier.isToken_valueName parameter.name).feed,
      HttpParameter.feed_not_mem_extraction hhost _ parameter⟩
  case backend =>
    rw [h.method_backend, h.field]
    apply (Identifier.isToken_valueName backend.typeParameter).feed
  case call =>
    intro call answer hcall
    rcases serveAction_settled hplaced hoperation h.action with
      ⟨parameter, -, haction⟩ | ⟨-, arguments, split, harguments, -, haction⟩
    · rw [hcall] at haction
      cases haction
    · rw [hcall] at haction
      cases haction
      apply ServeCall.feed_not_mem_text
      · intro argument hargument
        obtain ⟨parameter, -, hsettled⟩ := mem_zip_of_forall₂ harguments.flip hargument
        apply SettlesArgument.isFlat hhost hplaced hsettled
      · apply h.toIsBackend.feed_not_mem_itemReference hd
        apply (Code.isToken_optionsTypeName (isToken_traitName h.traitName) _).feed

/-- The method for an endpoint is read from the module of the server. -/
theorem HoldsServer.readsMethod (hd : job.Session d) {http : HttpService} {m : ModuleId}
    {backends : List Backend} {methods : List ServeMethod} {method : ServeMethod}
    (h : job.HoldsServer d m (Endpoint.collect job.graph http).1 backends methods)
    (hmethod : (endpoint, method) ∈ (Endpoint.collect job.graph http).1.zip methods)
    (hcrate : '\n' ∉ job.config.cratePath.toList) :
  d.ReadsMethod m (job.config.host "server") endpoint
    ⟨method.parametersPath, method.fields.map Prod.fst, method.action.reading method.backend⟩
  := by
  have hhost : '\n' ∉ (job.config.host "server").toList :=
    Config.feed_not_mem_host hcrate (by decide)
  obtain ⟨hendpoint, hmem⟩ := List.of_mem_zip hmethod
  have hoperation := (TypeGraph.operation?_eq_some (Endpoint.operation_mem hendpoint).2).1
  have hname := Endpoint.parsed_of_mem_collectFrom hendpoint
  obtain ⟨backend, -, hserves⟩ := List.forall₂_zip h.serves hmethod
  obtain ⟨text, htext, hlines⟩ := h.server
  have hlegible := hserves.isLegible hd hname hoperation hhost
  refine ⟨text, htext, (method.lines (job.config.host "server")).tail, ?_, ?_⟩
  · apply hlines.isInfix (ServeMethod.isInfix_serverLines _ _ _ hmem)
    apply hlegible.isLine_tail hhost
  · rw [← hserves.method_endpoint]
    apply ServeMethod.read?_lines
    rw [hserves.method_fields]
    intro field hfield
    obtain ⟨parameter, -, rfl⟩ := List.mem_map.mp hfield
    apply Identifier.not_mem_valueName Words.isForeign_colon (by decide)

/-! ### Methods of a trait -/

/-- The split of an operation that is settled is known. -/
theorem lookup_of_splitReturn {container : Container} {operation : Operation} {split : ReturnSplit}
    (h : Settled (job.splitReturn container operation) d split) :
  d.splits.lookup ⟨container, operation.name⟩ = some split
  := by
  obtain ⟨problems, hexec⟩ := h d (Later.refl d)
  apply job.splitReturn_eq_ok hexec

/-- What a method is put together from is read back. -/
theorem IsMethod.isLegible (hjob : job.IsStandard) (hd : job.Session d)
    (hsplits : ∀ reference split, d.splits.lookup reference = some split →
      IsSplit job.graph d.subsets reference split)
    {container : Container} {trait : String} (htrait : IsToken trait) {path : ModulePath}
    {operation : Operation} {declared : Code.Method}
    (h : job.IsMethod d container trait path operation declared) :
  declared.IsLegible
  := by
  obtain ⟨type, htype, hrequired, hoptional⟩ := h.parameters
  have hspelled {parameter : Field} {test : Field → Bool}
      (hparameter : parameter ∈ (job.informative operation).filter test) :
      '\n' ∉ (type parameter).toList := by
    apply hd.feed_not_mem_of_settled hjob (htype parameter (List.mem_of_mem_filter hparameter))
  constructor
  case name =>
    rw [h.name]
    apply (Code.isToken_methodName operation.name).feed
  case required =>
    rw [hrequired, List.forall_mem_map]
    intro parameter hparameter
    dsimp only
    exact ⟨(Identifier.isToken_valueName parameter.name).feed, hspelled hparameter⟩
  case optional =>
    rw [hoptional, List.forall_mem_map]
    intro parameter hparameter
    dsimp only
    exact ⟨(Identifier.isToken_valueName parameter.name).feed,
      Identifier.not_mem_valueName Words.isForeign_colon (by decide) _, hspelled hparameter⟩
  case result =>
    obtain ⟨split, success, error, hsplit, hsuccess, herror, hresult⟩ := h.result
    obtain ⟨other, -, -, hside, hside'⟩ := hsplits _ _ (lookup_of_splitReturn hsplit)
    have hfuture := Config.feed_not_mem_host hjob.cratePath
      (show '\n' ∉ "OperationFuture".toList by decide)
    have hspelled := hd.feed_not_mem_spellSide hjob hside hsuccess
    have hspelled' := hd.feed_not_mem_spellSide hjob hside' herror
    rw [hresult]
    simp [hfuture, hspelled, hspelled']
  case optionsMethod =>
    rw [h.optionsMethod]
    apply (Code.isToken_optionsMethodName operation.name).feed
  case optionsType =>
    rw [h.optionsType]
    apply (Code.isToken_optionsTypeName htrait operation.name).feed

end Job

end ServiceBindings
