import ServiceBindings.Proofs.Http.RequestText
import ServiceBindings.Proofs.Http.SurfaceText

/-!
# The parameters of an endpoint

The struct of the parameters of an endpoint has a field for each parameter that carries information.
Its users agree with it: the server gives a value to each field, in the order of the struct, and the
function that builds a request takes only these fields. Each parameter that is not part of the path
is sent by one statement of that function.  All this is read from the lines of the emitted texts, if
no name of a parameter has a line feed.  A name with one breaks the struct, since it stands in a
comment of one line.
-/

namespace ServiceBindings

open Draft Drafting

/-! ### Fields of a request -/

/-- The fields that a path takes its arguments from. -/
def PathExpression.fields : PathExpression → List String
  | plain _ => []
  | format _ fields => fields

theorem PathExpression.fields_ofPieces (pieces : List PathPiece) :
  (ofPieces pieces).fields = pieces.filterMap PathPiece.field?
  := by
  by_cases hnone : pieces.filterMap PathPiece.field? = []
  · rw [ofPieces_of_nil hnone, hnone, fields]
  · rw [ofPieces_of_ne_nil hnone, fields]

/-- The field that is sent. -/
def Sending.field? (sending : Sending) : Option String :=
  match sending.value with
  | .literal _ => none
  | .field ident _ => some ident

/-- The fields of the parameters that a request is built from. -/
def RequestCode.fields (code : RequestCode) : List String :=
  code.path.fields ++ code.sendings.filterMap Sending.field?

/-- How a parameter is sent that is not part of the path. -/
def HttpParameter.sending (parameter : HttpParameter) : Sending where
  location := parameter.location
  name := if parameter.location = .body then none else some parameter.name
  value := .field (Identifier.valueName parameter.name) parameter.optional

namespace SendStatement

variable {graph : TypeGraph} {parameter : HttpParameter}

/-- A parameter of the path is not sent by a statement. -/
theorem ofParameter_eq_none (h : parameter.location = .path) : ofParameter graph parameter = none :=
  if_pos h

/-- A statement for a type with a single value sends no field. -/
theorem field?_of_isValue (h : graph.isValue parameter.type = true) {statement : SendStatement}
    (hstatement : ofParameter graph parameter = some statement) :
  statement.sending.field? = none
  := by
  unfold ofParameter at hstatement
  split at hstatement
  case isTrue => cases hstatement
  case isFalse =>
    split at hstatement
    case h_1 =>
      cases hstatement
      rfl
    case h_2 => cases hstatement
    case h_3 hliteral hnull =>
      rw [TypeGraph.isValue_eq_false hliteral hnull] at h
      cases h

/-- A parameter that carries information and is not part of the path is sent by a statement. -/
theorem exists_ofParameter (hpath : parameter.location ≠ .path)
    (h : graph.isValue parameter.type = false) :
  ∃ statement, ofParameter graph parameter = some statement
    ∧ statement.sending = parameter.sending
  := by
  unfold ofParameter
  rw [if_neg hpath]
  split
  case h_1 hkind =>
    rw [TypeGraph.isValue, hkind] at h
    cases h
  case h_2 hkind =>
    rw [TypeGraph.isValue, hkind] at h
    cases h
  case h_3 => exact ⟨_, rfl, rfl⟩

/-- The fields that are sent are those of the parameters that carry information and are not part of
the path. -/
theorem filter_sending (graph : TypeGraph) (parameters : List HttpParameter) :
  ((parameters.filterMap (ofParameter graph)).map sending).filter (·.field?.isSome)
    = ((parameters.filter fun parameter => !graph.isValue parameter.type).filter
      (·.location ≠ .path)).map HttpParameter.sending
  := by
  induction parameters with
  | nil => rfl
  | cons parameter parameters ih =>
      by_cases hpath : parameter.location = .path
      · rw [List.filterMap_cons_none (ofParameter_eq_none hpath), ih, List.filter_filter,
          List.filter_filter, List.filter_cons_of_neg (by simp [hpath])]
      · cases hvalue : graph.isValue parameter.type with
        | true =>
            rw [List.filter_cons_of_neg (by simp [hvalue]), ← ih]
            cases hstatement : ofParameter graph parameter with
            | none => rw [List.filterMap_cons_none hstatement]
            | some statement =>
                have hfield := field?_of_isValue hvalue hstatement
                rw [List.filterMap_cons_some hstatement, List.map_cons,
                  List.filter_cons_of_neg (by simp [hfield])]
        | false =>
            obtain ⟨statement, hstatement, hsending⟩ := exists_ofParameter hpath hvalue
            rw [List.filter_cons_of_pos (by simp [hvalue]),
              List.filter_cons_of_pos (by simpa using hpath), List.map_cons, ← ih,
              List.filterMap_cons_some hstatement, List.map_cons, hsending,
              List.filter_cons_of_pos (by rfl)]

end SendStatement

namespace Endpoint

variable {graph : TypeGraph} {endpoint : Endpoint}

/-- The fields of the parameters of an endpoint. -/
def parameterFields (graph : TypeGraph) (endpoint : Endpoint) : List String :=
  (endpoint.parameters graph).map fun parameter => Identifier.valueName parameter.name

theorem colon_not_mem_of_mem_parameterFields {field : String}
    (h : field ∈ endpoint.parameterFields graph) :
  ':' ∉ field.toList
  := by
  obtain ⟨parameter, -, rfl⟩ := List.mem_map.mp h
  apply Identifier.not_mem_valueName Words.isForeign_colon (by decide)

theorem filter_sendings (graph : TypeGraph) (endpoint : Endpoint) :
  (endpoint.requestCode graph).sendings.filter (·.field?.isSome)
    = ((endpoint.parameters graph).filter (·.location ≠ .path)).map HttpParameter.sending :=
  SendStatement.filter_sending graph endpoint.http.parameters

/-- A request is built from fields of the parameters. -/
theorem mem_parameterFields_of_mem_fields {field : String}
    (h : field ∈ (endpoint.requestCode graph).fields) :
  field ∈ endpoint.parameterFields graph
  := by
  rcases List.mem_append.mp h with h | h
  · change field ∈ (PathExpression.ofPieces (endpoint.pathPieces graph)).fields at h
    rw [PathExpression.fields_ofPieces] at h
    obtain ⟨parameter, hparameter, -, rfl⟩ := exists_parameter_of_field? h
    apply List.mem_map_of_mem hparameter
  · obtain ⟨sending, hsending, hfield⟩ := List.mem_filterMap.mp h
    have hsent : sending ∈ (endpoint.requestCode graph).sendings.filter (·.field?.isSome) := by
      apply List.mem_filter.mpr ⟨hsending, _⟩
      rw [hfield, Option.isSome_some]
    rw [filter_sendings] at hsent
    obtain ⟨parameter, hparameter, rfl⟩ := List.mem_map.mp hsent
    cases hfield
    apply List.mem_map_of_mem (List.mem_of_mem_filter hparameter)

end Endpoint

/-! ### Reading the struct -/

namespace ParametersStruct

/-- The fields in the struct; each has a line of documentation. -/
def readFields? : List String → Option (List String)
  | [] => some []
  | [_] => none
  | doc :: field :: rest => do
    let _ ← Text.after? "/// " doc
    let name ← Code.readFieldName? (← Text.after? "pub " field)
    return name :: (← readFields? rest)

/-- The fields of the struct, from its lines and the line of its attribute. -/
def read? : List String → Option (List String)
  | [] => none
  | [_, line] => if line = "pub struct Parameters \x7b\x7d" then some [] else none
  | _ :: lines =>
    (Code.readBlock? lines).bind fun (head, body) =>
      if head = "pub struct Parameters" then readFields? body else none

/-- Whether lines declare a field. -/
def IsField (name : String) (lines : List String) : Prop :=
  ∃ doc type, lines = ["/// " ++ doc, "pub " ++ name ++ ": " ++ type ++ ","]

theorem readFields?_flatten {names : List String} {groups : List (List String)}
    (hcolon : ∀ name ∈ names, ':' ∉ name.toList) (h : List.Forall₂ IsField names groups) :
  readFields? groups.flatten = some names
  := by
  induction h with
  | nil => rfl
  | @cons name lines names groups hfield _ ih =>
      obtain ⟨hname, hnames⟩ := List.forall_mem_cons.mp hcolon
      obtain ⟨doc, type, rfl⟩ := hfield
      rw [List.flatten_cons, List.cons_append, List.cons_append, List.nil_append, readFields?,
        Text.after?_append]
      simp only [String.append_assoc, Text.after?_append]
      simp only [← String.append_assoc, Option.bind_eq_bind, Option.bind_some]
      rw [String.append_assoc, Code.readFieldName?_append hname, ih hnames]
      rfl

/-- The fields of the struct are read back. -/
theorem read?_blockOrBraces {first : String} {names : List String} {groups : List (List String)}
    (hcolon : ∀ name ∈ names, ':' ∉ name.toList) (h : List.Forall₂ IsField names groups) :
  read? (first :: Code.blockOrBraces "pub struct Parameters" groups.flatten) = some names
  := by
  have hread := readFields?_flatten hcolon h
  cases hlines : groups.flatten with
  | nil =>
      rw [hlines] at hread
      exact hread
  | cons line lines =>
      have hblock : read? (first :: Code.block "pub struct Parameters" (line :: lines))
          = (Code.readBlock? (Code.block "pub struct Parameters" (line :: lines))).bind
            fun (head, body) => if head = "pub struct Parameters" then readFields? body else none :=
        rfl
      rw [hlines] at hread
      rw [Code.blockOrBraces, if_neg (by simp), hblock, Code.readBlock?_block, Option.bind_some]
      dsimp only
      rw [if_pos rfl, hread]

end ParametersStruct

/-! ### The text of the parameters -/

/-- Whether a module holds the code of an endpoint: a struct with the fields `declared`, and a
function that builds requests by `code`. -/
structure Draft.HoldsParameters (draft : Draft) (config : Config) (endpoint : Endpoint)
    (m : ModuleId) (declared : List String) (code : RequestCode) : Prop where
  path : draft.modules.path m = ⟨["http", "operations", endpoint.moduleName]⟩
  parameters : ∃ text ∈ draft.modules.texts m,
    ParametersStruct.read? (Text.linesOf text) = some declared
  request : ∃ text ∈ draft.modules.texts m, ∃ lines others,
    Text.linesOf text = lines ++ "" :: others
    ∧ RequestCode.read? (config.host "client") lines = some code

/-- Whether a module holds the server, and its method for an endpoint builds the parameters that the
module `client` declares, with values for the fields `built`. -/
structure Draft.BuildsParameters (draft : Draft) (config : Config) (endpoint : Endpoint)
    (m client : ModuleId) (built : List String) : Prop where
  path : draft.modules.path m = ⟨["http", "server"]⟩
  method : ∃ reading, draft.ReadsMethod m (config.host "server") endpoint reading
    ∧ reading.path
      = (draft.modules.path m).itemReference (draft.modules.path client) "Parameters"
    ∧ reading.fields = built

namespace Job

variable {job : Job} {d draft : Draft} {endpoint : Endpoint}

/-- The lines of a parameter declare its field. -/
theorem parameterLines_settled {path : ModulePath} {parameter : HttpParameter} {lines : List String}
    (hd : Placed d) (h : Settled (job.parameterLines endpoint path parameter) d lines) :
  ∃ type, Settled (job.spell parameter.type none .owned path
      (endpoint.name.pascalCase ++ pascalCase parameter.name)) d type
    ∧ lines = [
      "/// " ++ capitalized parameter.location.text ++ " parameter `" ++ parameter.name ++ "`",
      "pub " ++ Identifier.valueName parameter.name ++ ": "
        ++ (if parameter.optional then Code.optionOf type else type) ++ ","] :=
  (job.spell_steady _ _ _ _ _).toSettles.of_bind_pure hd h

theorem isField_parameterLines {path : ModulePath} {parameter : HttpParameter} {lines : List String}
    (hd : Placed d) (h : Settled (job.parameterLines endpoint path parameter) d lines) :
  ParametersStruct.IsField (Identifier.valueName parameter.name) lines
  := by
  obtain ⟨type, -, rfl⟩ := parameterLines_settled hd h
  refine ⟨capitalized parameter.location.text ++ (" parameter `" ++ (parameter.name ++ "`")),
    if parameter.optional then Code.optionOf type else type, ?_⟩
  simp only [String.append_assoc]

/-- The lines of a parameter are one line each, if its name has no line feed. -/
theorem isLine_parameterLines (hjob : job.IsStandard) (hd : job.Session d) {path : ModulePath}
    {parameter : HttpParameter} (hname : '\n' ∉ parameter.name.toList) {lines : List String}
    (h : Settled (job.parameterLines endpoint path parameter) d lines) :
  ∀ line ∈ lines, Text.IsLine line
  := by
  obtain ⟨type, htype, rfl⟩ := parameterLines_settled (Session.placed hd) h
  have hspelled := hd.feed_not_mem_of_settled hjob htype
  have hident := (Identifier.isToken_valueName parameter.name).feed
  have hlocation : '\n' ∉ (capitalized parameter.location.text).toList := by
    cases parameter.location <;> decide +kernel
  rw [List.forall_mem_cons, List.forall_mem_singleton]
  constructor
  · apply Text.isLine_append _ (by decide) (by decide)
    simp [hlocation, hname]
  · apply Text.isLine_append _ (by decide) (by decide)
    split <;> simp [Code.optionOf, hspelled, hident]

/-- The struct and the request of an endpoint are read from its module. -/
theorem HoldsClient.holdsParameters (hjob : job.IsStandard) (hd : job.Session d) {m : ModuleId}
    {split : ReturnSplit} {response error : String}
    (h : job.HoldsClient d m endpoint split response error)
    (hnames : ∀ parameter ∈ endpoint.parameters job.graph, '\n' ∉ parameter.name.toList) :
  d.HoldsParameters job.config endpoint m (endpoint.parameterFields job.graph)
    (endpoint.requestCode job.graph)
  := by
  have hclient : '\n' ∉ (job.config.host "client").toList :=
    Config.feed_not_mem_host hjob.cratePath (by decide)
  constructor
  case path => apply h.path
  case parameters =>
    obtain ⟨groups, hgroups, text, htext, hlines⟩ := h.parameters
    have hfields : List.Forall₂ ParametersStruct.IsField (endpoint.parameterFields job.graph)
        groups := by
      rw [Endpoint.parameterFields, List.forall₂_map_left_iff]
      apply hgroups.imp
      intro parameter lines hsettled
      apply isField_parameterLines (Session.placed hd) hsettled
    have hall : ∀ line ∈ groups.flatten, Text.IsLine line := by
      intro line hline
      obtain ⟨group, hgroup, hline⟩ := List.mem_flatten.mp hline
      obtain ⟨parameter, hpair, hsettled⟩ := mem_zip_of_forall₂ hgroups.flip hgroup
      apply isLine_parameterLines hjob hd (hnames parameter (List.of_mem_zip hpair).2) hsettled
        line hline
    refine ⟨text, htext, ?_⟩
    rw [hlines.linesOf]
    · apply ParametersStruct.read?_blockOrBraces _ hfields
      intro field hfield
      apply Endpoint.colon_not_mem_of_mem_parameterFields hfield
    · rw [List.forall_mem_cons]
      refine ⟨by decide, ?_⟩
      unfold Code.blockOrBraces
      split
      case isTrue => decide
      case isFalse => apply Code.isLine_block (by decide) hall
  case request =>
    obtain ⟨text, htext, hlines⟩ := h.client
    refine ⟨text, htext, _, _,
      hlines.linesOf (endpoint.isLine_clientLines job.graph hclient response error),
      endpoint.read?_requestLines job.graph _⟩

/-- The method of the server for an endpoint builds its parameters. -/
theorem HoldsServer.buildsParameters (hd : job.Session d)
    (hcrate : '\n' ∉ job.config.cratePath.toList) {http : HttpService} {m client : ModuleId}
    {backends : List Backend} {methods : List ServeMethod}
    (h : job.HoldsServer d m (Endpoint.collect job.graph http).1 backends methods)
    (hclient : d.modules.path client = ⟨["http", "operations", endpoint.moduleName]⟩)
    (hendpoint : endpoint ∈ (Endpoint.collect job.graph http).1) :
  d.BuildsParameters job.config endpoint m client (endpoint.parameterFields job.graph)
  := by
  obtain ⟨method, hmethod, backend, -, hserves⟩ := mem_zip_of_forall₂ h.serves hendpoint
  refine ⟨h.path, _, h.readsMethod hd hmethod hcrate, ?_, ?_⟩
  · rw [h.path, hclient]
    apply hserves.method_path
  · dsimp only
    rw [hserves.method_fields, Endpoint.extractedFields, List.map_map]
    rfl

/-- The users of the parameters of an endpoint agree, if no name of a parameter has a line feed.  The
struct has a field for each parameter that carries information, and the server builds this struct
with values for just these fields.  The function that builds a request takes no other field, and its
statements that send fields are one for each of the parameters that are not part of the path. -/
theorem parameters_agree (hjob : job.IsStandard) {http : HttpService}
    (hrun : exec job.run .start = (.ok (), draft)) (hhttp : job.service.http = some http)
    (hwanted : job.config.http = true)
    (hendpoint : endpoint ∈ (Endpoint.collect job.graph http).1)
    (hnames : ∀ parameter ∈ endpoint.parameters job.graph, '\n' ∉ parameter.name.toList) :
  ∃ m server declared built code,
    draft.HoldsParameters job.config endpoint m declared code
    ∧ draft.BuildsParameters job.config endpoint server m built
    ∧ declared = (endpoint.parameters job.graph).map
      (fun parameter => Identifier.valueName parameter.name)
    ∧ built = declared
    ∧ (∀ field ∈ code.fields, field ∈ declared)
    ∧ code.sendings.filter (·.field?.isSome)
      = ((endpoint.parameters job.graph).filter (·.location ≠ .path)).map HttpParameter.sending
  := by
  have hsession := session_of_run hrun
  have hsurface := run_holdsSurface hrun hhttp hwanted
  obtain ⟨client, split, response, error, hclient⟩ := hsurface.clients endpoint hendpoint
  obtain ⟨server, backends, methods, hserver⟩ := hsurface.server (List.ne_nil_of_mem hendpoint)
  exact ⟨client, server, _, _, _, hclient.holdsParameters hjob hsession hnames,
    hserver.buildsParameters hsession hjob.cratePath hclient.path hendpoint, rfl, rfl,
    fun _ => Endpoint.mem_parameterFields_of_mem_fields,
    endpoint.filter_sendings job.graph⟩

/-- A shelf with an operation that puts a book on it. -/
def shelfGraph : TypeGraph := {
  namespaces := [
    { name := "" },
    { name := "Shelf"
      parent := some .global
      operations := [{ name := "put", returnType := ⟨3⟩ }] }]
  types := [
    { kind := .record { name := some "Book", owner := some ⟨1⟩ } },
    { kind := .literal (.string "v1") },
    { kind := .intrinsic .null },
    { kind := .intrinsic .void }] }

/-- The HTTP operation of the shelf, with parameters of all locations and some without
information. -/
def shelfHttp : HttpService := {
  operations := [
    { operation := ⟨.group ⟨1⟩, "put"⟩
      verb := .put
      path := "/\x7bversion\x7d/\x7bid\x7d\x7bgap\x7d"
      parameters := [
        ⟨"book", .body, ⟨0⟩, false⟩, ⟨"version", .path, ⟨1⟩, false⟩, ⟨"type", .query, ⟨0⟩, true⟩,
        ⟨"gap", .path, ⟨2⟩, false⟩, ⟨"id", .path, ⟨0⟩, false⟩, ⟨"tag", .header, ⟨1⟩, false⟩] }] }

/-- The generation of the code of the shelf. -/
def shelfJob : Job := {
  graph := shelfGraph.link.1
  service := { root := ⟨1⟩, http := some shelfHttp }
  config := {} }

/-- The struct of the shelf and its users have three fields, two of which are sent by statements. -/
theorem parameters_agree_shelf :
  ∃ draft, exec shelfJob.run .start = (.ok (), draft)
    ∧ ∃ endpoint ∈ (Endpoint.collect shelfJob.graph shelfHttp).1, ∃ m server code,
      draft.HoldsParameters {} endpoint m ["book", "r#type", "id"] code
      ∧ draft.BuildsParameters {} endpoint server m ["book", "r#type", "id"]
      ∧ code.sendings.filter (·.field?.isSome)
        = [⟨.body, none, .field "book" false⟩, ⟨.query, some "type", .field "r#type" true⟩]
  := by
  have hrun := exec_eq_of_ok (show (exec shelfJob.run .start).1 = .ok () by decide +kernel)
  have hstandard : shelfJob.IsStandard := ⟨rfl, by decide⟩
  obtain ⟨endpoint, hendpoint, hfields, hnames, hsent⟩ :
      ∃ endpoint ∈ (Endpoint.collect shelfJob.graph shelfHttp).1,
        (endpoint.parameters shelfJob.graph).map (fun parameter =>
          Identifier.valueName parameter.name) = ["book", "r#type", "id"]
        ∧ (∀ parameter ∈ endpoint.parameters shelfJob.graph, '\n' ∉ parameter.name.toList)
        ∧ ((endpoint.parameters shelfJob.graph).filter (·.location ≠ .path)).map
          HttpParameter.sending
          = [⟨.body, none, .field "book" false⟩, ⟨.query, some "type", .field "r#type" true⟩] := by
    decide +kernel
  obtain ⟨m, server, declared, built, code, hholds, hbuilds, hdeclared, hbuilt, -, hsendings⟩ :=
    parameters_agree hstandard hrun rfl rfl hendpoint hnames
  rw [hfields] at hdeclared
  rw [hsent] at hsendings
  subst hbuilt hdeclared
  exact ⟨_, hrun, endpoint, hendpoint, m, server, code, hholds, hbuilds, hsendings⟩

/-- Another HTTP operation of the shelf, whose parameter has a name of two lines. -/
def brokenHttp : HttpService := {
  operations := [
    { operation := ⟨.group ⟨1⟩, "put"⟩
      verb := .put
      path := "/"
      parameters := [⟨"a\nb", .query, ⟨0⟩, false⟩] }] }

/-- The generation of the code of the shelf with that operation. -/
def brokenJob : Job := {
  graph := shelfGraph.link.1
  service := { root := ⟨1⟩, http := some brokenHttp }
  config := {} }

/-- A name of two lines breaks the struct.  The server gives a value to its field, but the second
line of the name stands between the fields as it is, and the struct cannot be read. -/
theorem parameters_disagree_shelf :
  ∃ draft, exec brokenJob.run .start = (.ok (), draft)
    ∧ ∃ endpoint ∈ (Endpoint.collect brokenJob.graph brokenHttp).1, ∃ m server,
      draft.modules.path m = ⟨["http", "operations", endpoint.moduleName]⟩
      ∧ draft.BuildsParameters {} endpoint server m ["a_b"]
      ∧ ∃ text ∈ draft.modules.texts m, "pub struct Parameters \x7b" ∈ Text.linesOf text
        ∧ "b`" ∈ Text.linesOf text ∧ ParametersStruct.read? (Text.linesOf text) = none
  := by
  have hrun := exec_eq_of_ok (show (exec brokenJob.run .start).1 = .ok () by decide +kernel)
  have hspelling : (exec (brokenJob.spell ⟨0⟩ none .owned ⟨["http", "operations", "shelf_put"]⟩
      ("ShelfPut" ++ pascalCase "a\nb")) (exec brokenJob.run .start).2).1
        = .ok "super::super::super::models::all::shelf::Book" := by
    decide +kernel
  generalize (exec brokenJob.run .start).2 = draft at hrun hspelling
  obtain ⟨endpoint, hendpoint, hparameters, hmodule, hname⟩ :
      ∃ endpoint ∈ (Endpoint.collect brokenJob.graph brokenHttp).1,
        endpoint.parameters brokenJob.graph = [⟨"a\nb", .query, ⟨0⟩, false⟩]
        ∧ endpoint.moduleName = "shelf_put" ∧ endpoint.name.pascalCase = "ShelfPut" := by
    decide +kernel
  have hsession := session_of_run hrun
  have hsurface := run_holdsSurface hrun rfl rfl
  obtain ⟨client, split, response, error, hclient⟩ := hsurface.clients endpoint hendpoint
  obtain ⟨server, backends, methods, hserver⟩ := hsurface.server (List.ne_nil_of_mem hendpoint)
  have hbuilds := hserver.buildsParameters hsession (by decide) hclient.path hendpoint
  have hfields : endpoint.parameterFields brokenJob.graph = ["a_b"] := by
    rw [Endpoint.parameterFields, hparameters]
    decide +kernel
  rw [hfields] at hbuilds
  obtain ⟨groups, hgroups, text, htext, hlines⟩ := hclient.parameters
  rw [hparameters, hclient.path, hmodule] at hgroups
  obtain ⟨lines, _, hsettled, hnil, rfl⟩ := List.forall₂_cons_left_iff.mp hgroups
  obtain rfl := List.forall₂_nil_left_iff.mp hnil
  obtain ⟨type, htype, rfl⟩ := parameterLines_settled (Session.placed hsession) hsettled
  rw [hname] at htype
  obtain ⟨problems, hexec⟩ := htype draft (Later.refl draft)
  dsimp only at hexec
  rw [hexec] at hspelling
  obtain rfl := Except.ok.inj hspelling
  refine ⟨draft, hrun, endpoint, hendpoint, client, server, hclient.path, hbuilds, text, htext, ?_⟩
  rw [hlines.linesOf_eq]
  decide +kernel

end Job

end ServiceBindings
