import ServiceBindings.Code.Lines
import ServiceBindings.Http.Endpoint

/-!
# Outcomes

Which responses of an endpoint are successes, and the function that tells it of a status: declared
codes come first, then ranges, then the default response.
-/

namespace ServiceBindings

/-- The side of an operation that a response belongs to. -/
inductive Outcome where
  | success
  | error
  deriving DecidableEq, Repr

/-- The variant of an outcome. -/
def Outcome.variant : Outcome → String
  | success => "Success"
  | error => "Error"

/-- A response is an error if its body is an error record or its status says so. -/
def HttpResponse.outcome (graph : TypeGraph) (response : HttpResponse) : Outcome :=
  if response.body.any graph.isErrorRecord || response.status.isError then .error else .success

/-- The type of outcomes. -/
def outcomeLines : List String :=
  "/// Side of an operation a response status belongs to."
    :: Code.derives ["Debug", "Clone", "Copy", "PartialEq", "Eq"]
    :: Code.block "pub enum Outcome" ["Success,", "Error,"]

/-! ### Classifying a status -/

/-- The statuses that an arm is for. -/
inductive StatusPattern where
  | exact (code : Nat)
  | range (start stop : Nat)
  | any
  deriving DecidableEq, Repr

/-- An arm of the classification. -/
structure StatusArm where
  pattern : StatusPattern
  outcome : Option Outcome
  deriving DecidableEq, Repr

/-- A status with the outcome that the response sent with it has. -/
abbrev DeclaredStatus := StatusCode × Outcome

/-- The arms of the exact codes, the first response of each code counts. -/
def exactArms (seen : List Nat) : List DeclaredStatus → List StatusArm
  | [] => []
  | (.exact code, outcome) :: rest =>
    if code ∈ seen then exactArms seen rest
    else ⟨.exact code, some outcome⟩ :: exactArms (code :: seen) rest
  | _ :: rest => exactArms seen rest

/-- The arms of the ranges. -/
def rangeArms (statuses : List DeclaredStatus) : List StatusArm :=
  statuses.filterMap fun (status, outcome) =>
    match status with
    | .range start stop => some ⟨.range start stop, some outcome⟩
    | _ => none

/-- The arm of all other statuses. -/
def defaultArm (statuses : List DeclaredStatus) : StatusArm :=
  ⟨.any, (statuses.find? fun (status, _) => status = .default).map (·.2)⟩

/-- The arms of the classification of an endpoint. -/
def statusArms (statuses : List DeclaredStatus) : List StatusArm :=
  exactArms [] statuses ++ rangeArms statuses ++ [defaultArm statuses]

/-- Whether a status is one of a pattern. -/
def StatusPattern.accepts (pattern : StatusPattern) (status : Nat) : Bool :=
  match pattern with
  | exact code => status = code
  | range start stop => start ≤ status && status ≤ stop
  | any => true

/-- The outcome of a status: that of the first arm it is accepted by. -/
def classify (arms : List StatusArm) (status : Nat) : Option Outcome :=
  (arms.find? fun arm => arm.pattern.accepts status).bind (·.outcome)

/-- The text of a pattern. -/
def StatusPattern.text : StatusPattern → String
  | exact code => toString code
  | range start stop => toString start ++ "..=" ++ toString stop
  | any => "_"

/-- The text of an arm. -/
def StatusArm.line (arm : StatusArm) : String :=
  let outcome :=
    match arm.outcome with
    | some outcome => "Some(super::Outcome::" ++ outcome.variant ++ ")"
    | none => "None"
  arm.pattern.text ++ " => " ++ outcome ++ ","

/-- The function that classifies a status. -/
def classifyLines (arms : List StatusArm) : List String :=
  Code.block "pub fn classify(status: u16) -> Option<super::Outcome>"
    (Code.block "match status" (arms.map StatusArm.line))

namespace Endpoint

/-- The statuses of the responses of an endpoint. -/
def statuses (graph : TypeGraph) (endpoint : Endpoint) : List DeclaredStatus :=
  endpoint.http.responses.map fun response => (response.status, response.outcome graph)

/-! ### Shapes of responses -/

/-- The number of different bodies among the responses of an outcome. -/
def shapeCount (graph : TypeGraph) (endpoint : Endpoint) (outcome : Outcome) : Nat :=
  ((endpoint.http.responses.filter fun response => response.outcome graph = outcome).map
    (·.body)).eraseDups.length

/-- The problem of an endpoint that declares responses, but not exactly one success shape and at
most one error shape. -/
def shapeProblem? (graph : TypeGraph) (endpoint : Endpoint) : Option Diagnostic :=
  let successes := endpoint.shapeCount graph .success
  let errors := endpoint.shapeCount graph .error
  if endpoint.http.responses.isEmpty || (successes == 1 && errors ≤ 1) then none
  else
    let detail := "`" ++ endpoint.operation.name ++ "` has " ++ toString successes
      ++ " success and " ++ toString errors ++ " error shapes"
    some (Diagnostic.make .multipleResponseShapes endpoint.http.span (some detail) [])

end Endpoint

end ServiceBindings
