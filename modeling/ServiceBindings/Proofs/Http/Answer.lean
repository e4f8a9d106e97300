import ServiceBindings.Proofs.Http.RequestText
import ServiceBindings.Proofs.Http.SurfaceText

/-!
# The client and the answers of the server

What the server sends when a method succeeds, and how the client of the same endpoint takes it.  The
server takes the status from the first success response, the client asks the function that
classifies statuses, and it reads the value by the type of the response.  All three are read from
the emitted texts.  They agree where a success response is declared for the status and not disputed,
and where the answer without a body is for an operation that returns nothing.  Otherwise they need
not.
-/

namespace ServiceBindings

open Draft Drafting Text

/-! ### Reading clients -/

/-- Whether a text of a module is a function that classifies statuses. -/
def Draft.Classifies (d : Draft) (m : ModuleId) (outcome : Nat → Option Outcome) : Prop :=
  ∃ text ∈ d.modules.texts m, ∀ status, runClassify? (linesOf text) status = some (outcome status)

/-- Whether a text of a module ends with a function that reads responses, which has some arms. -/
def Draft.Decodes (d : Draft) (m : ModuleId) (client : String)
    (arms : List (Outcome × BodyReading)) : Prop :=
  ∃ text ∈ d.modules.texts m, ∃ lines, lines <:+ linesOf text
    ∧ BodyReading.read? client lines = some arms

theorem Job.HoldsClient.classifies {job : Job} {d : Draft} {m : ModuleId} {endpoint : Endpoint}
    {split : ReturnSplit} {response error : String}
    (h : job.HoldsClient d m endpoint split response error) :
  d.Classifies m (endpoint.outcomeOf job.graph)
  := by
  obtain ⟨text, htext, hlines⟩ := h.classify
  refine ⟨text, htext, ?_⟩
  intro status
  rw [hlines.linesOf (isLine_classifyLines _), runClassify?, readClassify?_classifyLines]
  rfl

theorem Job.HoldsClient.decodes {job : Job} {d : Draft} {m : ModuleId} {endpoint : Endpoint}
    {split : ReturnSplit} {response error : String}
    (h : job.HoldsClient d m endpoint split response error)
    (hcrate : '\n' ∉ job.config.cratePath.toList) :
  d.Decodes m (job.config.host "client") (BodyReading.arms response error)
  := by
  have hclient : '\n' ∉ (job.config.host "client").toList :=
    Config.feed_not_mem_host hcrate (by decide)
  obtain ⟨text, htext, hlines⟩ := h.client
  refine ⟨text, htext, BodyReading.block (job.config.host "client") response error, ?_,
    BodyReading.read?_block _ _ _⟩
  rw [hlines.linesOf (endpoint.isLine_clientLines job.graph hclient response error)]
  apply (BodyReading.block_suffix _ response error).trans
  apply (List.suffix_cons "" _).trans (List.suffix_append _ _)

/-! ### Answers of the server -/

/-- The status of an answer. -/
def SuccessAnswer.status? : SuccessAnswer → Option Nat
  | never => none
  | empty status => some status
  | json status => some status

theorem Endpoint.status?_successAnswer (graph : TypeGraph) (endpoint : Endpoint) (isVoid : Bool) :
  (endpoint.successAnswer graph isVoid).status? = some (endpoint.successStatus graph isVoid)
  := by
  unfold successAnswer
  dsimp only
  split <;> rfl

/-- An answer with information is empty only if the first success response has no body. -/
theorem Endpoint.body_of_successAnswer {graph : TypeGraph} {endpoint : Endpoint} {status : Nat}
    (h : endpoint.successAnswer graph false = .empty status) :
  ∃ declared, endpoint.successResponse? graph = some declared ∧ declared.body = none
  := by
  unfold successAnswer at h
  dsimp only at h
  split at h
  case isTrue hbody =>
    rw [Bool.false_or, Option.any_eq_true] at hbody
    obtain ⟨declared, hdeclared, hbody⟩ := hbody
    exact ⟨declared, hdeclared, by simpa using hbody⟩
  case isFalse => cases h

/-- How the client of an endpoint takes an answer, where `outcome` classifies statuses, and `value`
says how the value of a success is read. -/
structure Endpoint.TakesAnswer (graph : TypeGraph) (endpoint : Endpoint) (isVoid : Bool)
    (outcome : Nat → Option Outcome) (value : Option BodyReading) (answer : SuccessAnswer)
    (status : Nat) : Prop where
  sent : answer.status? = some status
  /-- The server takes the status from the first success response, if there is one. -/
  declared : ∀ declared, endpoint.successResponse? graph = some declared →
    declared.status = .exact status ∨ ∃ stop, declared.status = .range status stop
  undeclared : endpoint.successResponse? graph = none → status = if isVoid then 204 else 200
  /-- The client accepts the status if the response that decides on it is a success. -/
  accepted_iff : outcome status = some .success
    ↔ ∃ deciding, endpoint.decidingResponse? status = some deciding
      ∧ deciding.outcome graph = .success
  undisputed : ∀ declared, endpoint.successResponse? graph = some declared →
    declared.status.declares status →
    (∀ other ∈ endpoint.http.responses, other.outcome graph = .error →
      other.status.declares status = false) →
    outcome status = some .success
  rejected : endpoint.successResponse? graph = none → ∀ other, outcome other ≠ some .success
  /-- The client does not read a body where the operation returns nothing. -/
  void : isVoid = true → answer = .empty status ∧ value = some .unit
  /-- Another answer without a body is one for a response that is declared without a body. -/
  empty : isVoid = false → answer = .empty status →
    ∃ declared, endpoint.successResponse? graph = some declared ∧ declared.body = none

theorem Endpoint.takesAnswer (graph : TypeGraph) (endpoint : Endpoint) {isVoid : Bool}
    {value : Option BodyReading} (hvalue : isVoid = true → value = some .unit) :
  endpoint.TakesAnswer graph isVoid (endpoint.outcomeOf graph) value
    (endpoint.successAnswer graph isVoid) (endpoint.successStatus graph isVoid)
  := by
  constructor
  case sent => apply endpoint.status?_successAnswer
  case declared =>
    intro declared hdeclared
    apply successStatus_of_response _ hdeclared
  case undeclared =>
    intro hnone
    apply successStatus_of_none _ hnone
  case accepted_iff => rw [outcomeOf_eq, Option.map_eq_some_iff]
  case undisputed =>
    intro declared hdeclared hstatus hundisputed
    apply outcomeOf_of_undisputed _ hstatus hundisputed
    apply (outcome_of_successResponse? hdeclared).1
  case rejected =>
    intro hnone other
    apply outcomeOf_of_none hnone
  case void =>
    rintro rfl
    exact ⟨rfl, hvalue rfl⟩
  case empty =>
    rintro rfl hempty
    apply body_of_successAnswer hempty

namespace Job

variable {job : Job} {d e : Draft}

/-- Whether one side of what an operation returns is the type without information. -/
def isVoid (job : Job) : ReturnSide → Bool
  | .type id _ => job.graph.kind? id = some (.intrinsic .void)
  | _ => false

theorem successAnswer_eq {endpoint : Endpoint} {success : ReturnSide} (h : success ≠ .nothing) :
  job.successAnswer endpoint success = endpoint.successAnswer job.graph (job.isVoid success)
  := by
  cases success with
  | nothing => apply absurd rfl h
  | type id name => rfl
  | union path => rfl

/-- The side without information is spelled as the unit. -/
theorem spellSide_of_isVoid {side : ReturnSide} {path : ModulePath} {spelling : String}
    (h : job.isVoid side = true) (hspelling : Settled (job.spellSide side path) d spelling) :
  spelling = "()"
  := by
  cases side with
  | type id name =>
      have hkind : job.graph.kind? id = some (.intrinsic .void) := by simpa [isVoid] using h
      have hunwrap : job.graph.unwrap id = some ([], id) := by
        rw [TypeGraph.unwrap, TypeGraph.unwrapWithin, hkind]
      rw [spellSide, spell, hunwrap] at hspelling
      dsimp only at hspelling
      rw [spellCore, hkind] at hspelling
      apply hspelling.eq (Settled.pure _ d)
  | _ => cases h

/-- An endpoint whose parameters are bound answers for the success side of its operation. -/
theorem HoldsServer.action {http : HttpService} {server client : ModuleId}
    {backends : List Backend} {methods : List ServeMethod} {endpoint : Endpoint}
    {method : ServeMethod} {split : ReturnSplit} {response error : String}
    (h : job.HoldsServer d server (Endpoint.collect job.graph http).1 backends methods)
    (hd : Placed d) (hmethod : (endpoint, method) ∈ (Endpoint.collect job.graph http).1.zip methods)
    (hclient : job.HoldsClient d client endpoint split response error) :
  (∃ parameter, endpoint.unbound? job.graph (job.informative endpoint.operation) = some parameter
      ∧ method.action = .unbound parameter.name)
    ∨ ∃ call, method.action = .call call (job.successAnswer endpoint split.success)
  := by
  have hendpoint := (List.of_mem_zip hmethod).1
  have hoperation := (TypeGraph.operation?_eq_some (Endpoint.operation_mem hendpoint).2).1
  obtain ⟨backend, -, hserves⟩ := List.forall₂_zip h.serves hmethod
  rcases serveAction_settled hd hoperation hserves.action with
    hunbound | ⟨-, arguments, found, -, hfound, haction⟩
  · apply Or.inl hunbound
  · obtain rfl := hfound.eq (job.splitReturn_settled hclient.known)
    exact Or.inr ⟨_, haction⟩

/-- What is read from the texts for an endpoint. -/
theorem reads_of_run {draft : Draft} {http : HttpService} {endpoint : Endpoint}
    (hrun : exec job.run .start = (.ok (), draft)) (hhttp : job.service.http = some http)
    (hwanted : job.config.http = true) (hcrate : '\n' ∉ job.config.cratePath.toList)
    (hendpoint : endpoint ∈ (Endpoint.collect job.graph http).1)
    (hbound : endpoint.unbound? job.graph (job.informative endpoint.operation) = none) :
  ∃ client split response error server reading statement,
    job.HoldsClient draft client endpoint split response error
    ∧ draft.Classifies client (endpoint.outcomeOf job.graph)
    ∧ draft.Decodes client (job.config.host "client") (BodyReading.arms response error)
    ∧ draft.ReadsMethod server (job.config.host "server") endpoint reading
    ∧ reading.action = .call statement (job.successAnswer endpoint split.success)
  := by
  have hsession := session_of_run hrun
  have hsurface := run_holdsSurface hrun hhttp hwanted
  obtain ⟨client, split, response, error, hclient⟩ := hsurface.clients endpoint hendpoint
  obtain ⟨server, backends, methods, hserver⟩ := hsurface.server (List.ne_nil_of_mem hendpoint)
  obtain ⟨method, hmethod, -⟩ := mem_zip_of_forall₂ hserver.serves hendpoint
  rcases hserver.action (Session.placed hsession) hmethod hclient with
    ⟨_, hunbound, -⟩ | ⟨call, hcall⟩
  · rw [hbound] at hunbound
    cases hunbound
  · have hreads := hserver.readsMethod hsession hmethod hcrate
    rw [hcall] at hreads
    exact ⟨client, split, response, error, server, _, _, hclient, hclient.classifies,
      hclient.decodes hcrate, hreads, rfl⟩

/-- What the server answers on success, and how the client takes it, for an endpoint with all its
parameters bound.  The client accepts the status if the response that decides on it is a success.
It does if a success response is declared and no error response disputes its status, and it accepts
nothing if none is declared.  It reads the body of an empty answer only if the first success
response is declared without a body, but the operation returns something.

All of this is read from texts, if the path of the host crate has no line feed: the functions that
classify a status and that read a response from the module of the endpoint, and the method that
answers from the module of the server. -/
theorem client_accepts_answer {draft : Draft} {http : HttpService} {endpoint : Endpoint}
    (hrun : exec job.run .start = (.ok (), draft)) (hhttp : job.service.http = some http)
    (hwanted : job.config.http = true) (hcrate : '\n' ∉ job.config.cratePath.toList)
    (hendpoint : endpoint ∈ (Endpoint.collect job.graph http).1)
    (hbound : endpoint.unbound? job.graph (job.informative endpoint.operation) = none) :
  ∃ client split response error server reading arms statement answer,
    job.HoldsClient draft client endpoint split response error
    ∧ draft.Classifies client (endpoint.outcomeOf job.graph)
    ∧ draft.Decodes client (job.config.host "client") arms
    ∧ arms.lookup .success = BodyReading.ofType response
    ∧ draft.ReadsMethod server (job.config.host "server") endpoint reading
    ∧ reading.action = .call statement answer
    ∧ (split.success ≠ .nothing → ∃ status,
      endpoint.TakesAnswer job.graph (job.isVoid split.success) (endpoint.outcomeOf job.graph)
        (arms.lookup .success) answer status)
  := by
  obtain ⟨client, split, response, error, server, reading, statement, hclient, hclassifies,
    hdecodes, hreads, haction⟩ := reads_of_run hrun hhttp hwanted hcrate hendpoint hbound
  refine ⟨client, split, response, error, server, reading, _, statement, _, hclient, hclassifies,
    hdecodes, BodyReading.lookup_success response error, hreads, haction, ?_⟩
  intro hsuccess
  rw [BodyReading.lookup_success, successAnswer_eq hsuccess]
  refine ⟨_, endpoint.takesAnswer job.graph ?_⟩
  intro hvoid
  rw [spellSide_of_isVoid hvoid hclient.success]
  decide

/-- A bell that can be rung, which returns nothing, and that has a tone, which it can hum. -/
def bellGraph : TypeGraph := {
  namespaces := [
    { name := "" },
    { name := "Bell"
      parent := some .global
      operations := [
        { name := "ring", returnType := ⟨0⟩ }, { name := "tone", returnType := ⟨1⟩ },
        { name := "hum", returnType := ⟨1⟩ }] }]
  types := [
    { kind := .intrinsic .void },
    { kind := .record { name := some "Tone", owner := some ⟨1⟩ } }] }

/-- The HTTP operations of the bell.  Ringing it declares no response, and humming declares one
without a body. -/
def bellHttp : HttpService := {
  operations := [
    { operation := ⟨.group ⟨1⟩, "ring"⟩, verb := .post, path := "/ring" },
    { operation := ⟨.group ⟨1⟩, "tone"⟩, verb := .get, path := "/tone"
      responses := [⟨.exact 404, none, none⟩, ⟨.range 200 299, some ⟨1⟩, none⟩] },
    { operation := ⟨.group ⟨1⟩, "hum"⟩, verb := .post, path := "/hum"
      responses := [⟨.exact 202, none, none⟩] }] }

/-- The job of the bell. -/
def bellJob : Job :=
  Schema.job ⟨bellGraph.link.1, { root := ⟨1⟩, http := some bellHttp }⟩ {}

/-- The client accepts the status with which the server sends the tone. -/
theorem client_accepts_answer_tone :
  ∃ draft, exec bellJob.run .start = (.ok (), draft)
    ∧ ∃ endpoint ∈ (Endpoint.collect bellJob.graph bellHttp).1, endpoint.operation.name = "tone"
      ∧ ∃ client server reading statement answer,
        draft.Classifies client (endpoint.outcomeOf bellJob.graph)
        ∧ draft.ReadsMethod server (bellJob.config.host "server") endpoint reading
        ∧ reading.action = .call statement answer ∧ answer.status? = some 200
        ∧ endpoint.outcomeOf bellJob.graph 200 = some .success
  := by
  have hrun := exec_eq_of_ok (show (exec bellJob.run .start).1 = .ok () by decide +kernel)
  have hsplit : (exec bellJob.run .start).2.splits.lookup ⟨.group ⟨1⟩, "tone"⟩
      = some ⟨.type ⟨1⟩ "ToneResponse", .nothing⟩ := by
    decide +kernel
  have hcrate : '\n' ∉ bellJob.config.cratePath.toList := by decide
  generalize (exec bellJob.run .start).2 = draft at hrun hsplit
  obtain ⟨endpoint, hendpoint, hname, hcontainer, hbound, declared, hdeclared, hstatus,
      hundisputed⟩ : ∃ endpoint ∈ (Endpoint.collect bellJob.graph bellHttp).1,
        endpoint.operation.name = "tone" ∧ endpoint.http.operation.container = .group ⟨1⟩
        ∧ endpoint.unbound? bellJob.graph (bellJob.informative endpoint.operation) = none
        ∧ ∃ declared ∈ endpoint.successResponse? bellJob.graph, declared.status = .range 200 299
          ∧ ∀ other ∈ endpoint.http.responses, other.outcome bellJob.graph = .error →
            other.status.declares 200 = false := by
    decide +kernel
  obtain ⟨client, split, _, _, server, reading, arms, statement, answer, hclient, hclassifies, -, -,
    hreads, haction, htakes⟩ := client_accepts_answer hrun rfl rfl hcrate hendpoint hbound
  have hknown := hclient.known
  rw [hname, hcontainer, hsplit] at hknown
  cases hknown
  obtain ⟨status, htaken⟩ := htakes (by simp)
  obtain rfl : 200 = status := by
    rcases htaken.declared declared hdeclared with hexact | ⟨stop, hrange⟩
    · rw [hstatus] at hexact
      cases hexact
    · rw [hstatus] at hrange
      cases hrange
      rfl
  refine ⟨draft, hrun, endpoint, hendpoint, hname, client, server, reading, statement, answer,
    hclassifies, hreads, haction, htaken.sent, ?_⟩
  apply htaken.undisputed declared hdeclared _ hundisputed
  rw [hstatus]
  decide

/-- The client does not accept the status with which the server tells that the bell was rung.  And
when the bell has hummed, the server sends no body, but the client accepts the status and reads the
tone from the body. -/
theorem client_rejects_answer_bell :
  ∃ draft, exec bellJob.run .start = (.ok (), draft)
    ∧ (∃ endpoint ∈ (Endpoint.collect bellJob.graph bellHttp).1,
      endpoint.operation.name = "ring" ∧ endpoint.outcomeOf bellJob.graph 204 = none
      ∧ ∃ client split response error server reading statement,
        bellJob.HoldsClient draft client endpoint split response error
        ∧ split.success ≠ .nothing
        ∧ draft.Classifies client (endpoint.outcomeOf bellJob.graph)
        ∧ draft.ReadsMethod server (bellJob.config.host "server") endpoint reading
        ∧ reading.action = .call statement (.empty 204))
    ∧ ∃ endpoint ∈ (Endpoint.collect bellJob.graph bellHttp).1,
      endpoint.operation.name = "hum" ∧ endpoint.outcomeOf bellJob.graph 202 = some .success
      ∧ ∃ client split response error server reading statement arms,
        bellJob.HoldsClient draft client endpoint split response error
        ∧ split.success ≠ .nothing
        ∧ draft.Classifies client (endpoint.outcomeOf bellJob.graph)
        ∧ draft.ReadsMethod server (bellJob.config.host "server") endpoint reading
        ∧ reading.action = .call statement (.empty 202)
        ∧ draft.Decodes client (bellJob.config.host "client") arms
        ∧ arms.lookup .success = some .json
  := by
  have hrun := exec_eq_of_ok (show (exec bellJob.run .start).1 = .ok () by decide +kernel)
  have hcrate : '\n' ∉ bellJob.config.cratePath.toList := by decide
  have hsplits : (exec bellJob.run .start).2.splits.lookup ⟨.group ⟨1⟩, "ring"⟩
        = some ⟨.type ⟨0⟩ "RingResponse", .nothing⟩
      ∧ (exec bellJob.run .start).2.splits.lookup ⟨.group ⟨1⟩, "hum"⟩
        = some ⟨.type ⟨1⟩ "HumResponse", .nothing⟩ := by
    decide +kernel
  have hspelling : (exec (bellJob.spellSide (.type ⟨1⟩ "HumResponse")
      ⟨["http", "operations", "bell_hum"]⟩) (exec bellJob.run .start).2).1
        = .ok "super::super::super::models::all::bell::Tone" := by
    decide +kernel
  generalize (exec bellJob.run .start).2 = draft at hrun hsplits hspelling
  obtain ⟨ring, hring, hname, hcontainer, hbound, houtcome, hanswer⟩ :
      ∃ endpoint ∈ (Endpoint.collect bellJob.graph bellHttp).1,
        endpoint.operation.name = "ring" ∧ endpoint.http.operation.container = .group ⟨1⟩
        ∧ endpoint.unbound? bellJob.graph (bellJob.informative endpoint.operation) = none
        ∧ endpoint.outcomeOf bellJob.graph 204 = none
        ∧ bellJob.successAnswer endpoint (.type ⟨0⟩ "RingResponse") = .empty 204 := by
    decide +kernel
  obtain ⟨hum, hhum, hname', hcontainer', hbound', houtcome', hanswer', hmodule⟩ :
      ∃ endpoint ∈ (Endpoint.collect bellJob.graph bellHttp).1,
        endpoint.operation.name = "hum" ∧ endpoint.http.operation.container = .group ⟨1⟩
        ∧ endpoint.unbound? bellJob.graph (bellJob.informative endpoint.operation) = none
        ∧ endpoint.outcomeOf bellJob.graph 202 = some .success
        ∧ bellJob.successAnswer endpoint (.type ⟨1⟩ "HumResponse") = .empty 202
        ∧ endpoint.moduleName = "bell_hum" := by
    decide +kernel
  refine ⟨draft, hrun, ⟨ring, hring, hname, houtcome, ?_⟩, hum, hhum, hname', houtcome', ?_⟩
  · obtain ⟨client, split, response, error, server, reading, statement, hclient, hclassifies, -,
      hreads, haction⟩ := reads_of_run hrun rfl rfl hcrate hring hbound
    have hknown := hclient.known
    rw [hname, hcontainer, hsplits.1] at hknown
    cases hknown
    rw [hanswer] at haction
    exact ⟨client, _, response, error, server, reading, statement, hclient, by simp, hclassifies,
      hreads, haction⟩
  · obtain ⟨client, split, response, error, server, reading, statement, hclient, hclassifies,
      hdecodes, hreads, haction⟩ := reads_of_run hrun rfl rfl hcrate hhum hbound'
    have hknown := hclient.known
    rw [hname', hcontainer', hsplits.2] at hknown
    cases hknown
    rw [hanswer'] at haction
    have hresponse := hclient.success
    rw [hclient.path, hmodule] at hresponse
    obtain ⟨problems, hexec⟩ := hresponse draft (Later.refl draft)
    rw [hexec] at hspelling
    obtain rfl := Except.ok.inj hspelling
    refine ⟨client, _, _, error, server, reading, statement, _, hclient, by simp, hclassifies,
      hreads, haction, hdecodes, ?_⟩
    rw [BodyReading.lookup_success]
    decide

end Job

end ServiceBindings
