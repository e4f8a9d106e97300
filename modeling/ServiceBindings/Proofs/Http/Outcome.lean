import Mathlib.Tactic.Use
import ServiceBindings.Http.Serve

/-!
# The outcome of a status

The outcome of a status is that of the response that decides on it: the first one with that very
code, or else the first one whose range spans it, or else the default response.  A client accepts
the status of a success if a success response is declared and no error response disputes its status,
and it accepts nothing if no success response is declared.
-/

namespace ServiceBindings

/-! ### The deciding response -/

namespace StatusCode

/-- Whether a status lies in the range of a declared one. -/
def spans : StatusCode → Nat → Bool
  | range start stop, status => start ≤ status && status ≤ stop
  | _, _ => false

/-- Whether a status is declared, as a code or in a range. -/
def declares (declared : StatusCode) (status : Nat) : Bool :=
  declared = exact status || declared.spans status

end StatusCode

/-- The arm of a declared status. -/
def DeclaredStatus.arm (declared : DeclaredStatus) : StatusArm :=
  match declared.1 with
  | .exact code => ⟨.exact code, some declared.2⟩
  | .range start stop => ⟨.range start stop, some declared.2⟩
  | .default => ⟨.any, some declared.2⟩

theorem DeclaredStatus.arm_outcome (declared : DeclaredStatus) :
  declared.arm.outcome = some declared.2
  := by
  unfold arm
  split <;> rfl

/-- The arm of a code is that of the first response with the code. -/
theorem find?_exactArms (seen : List Nat) (statuses : List DeclaredStatus) {status : Nat}
    (h : status ∉ seen) :
  (exactArms seen statuses).find? (fun arm => arm.pattern.accepts status)
    = (statuses.find? fun declared => declared.1 = .exact status).map DeclaredStatus.arm
  := by
  fun_induction exactArms seen statuses with
  | case1 => rfl
  | case2 seen code outcome rest hseen ih =>
      have hcode : ¬(StatusCode.exact code = .exact status) := by
        rintro ⟨⟩
        apply h hseen
      rw [ih h, List.find?_cons_of_neg (by simpa using hcode)]
  | case3 seen code outcome rest hseen ih =>
      by_cases hcode : status = code
      · subst hcode
        rw [List.find?_cons_of_pos (by simp [StatusPattern.accepts]),
          List.find?_cons_of_pos (by simp)]
        rfl
      · rw [List.find?_cons_of_neg (by simpa [StatusPattern.accepts] using hcode),
          List.find?_cons_of_neg (by simpa using Ne.symm hcode)]
        apply ih
        simp [hcode, h]
  | case4 seen declared rest hother ih =>
      rw [ih h, List.find?_cons_of_neg]
      intro hexact
      obtain ⟨code, outcome⟩ := declared
      apply hother status outcome
      simpa using hexact

/-- The arm of a range is that of the first response whose range spans the status. -/
theorem find?_rangeArms (statuses : List DeclaredStatus) (status : Nat) :
  (rangeArms statuses).find? (fun arm => arm.pattern.accepts status)
    = (statuses.find? fun declared => declared.1.spans status).map DeclaredStatus.arm
  := by
  induction statuses with
  | nil => rfl
  | cons declared rest ih =>
      obtain ⟨code, outcome⟩ := declared
      cases code with
      | range start stop =>
          change List.find? _ (⟨.range start stop, some outcome⟩ :: rangeArms rest) = _
          rw [List.find?_cons, List.find?_cons, ih]
          simp only [StatusPattern.accepts, StatusCode.spans]
          split <;> rfl
      | _ => apply ih

/-- The outcome of a status is that of the response that decides on it. -/
theorem classify_statusArms (statuses : List DeclaredStatus) (status : Nat) :
  classify (statusArms statuses) status
    = (((statuses.find? fun declared => declared.1 = .exact status).or
        ((statuses.find? fun declared => declared.1.spans status).or
          (statuses.find? fun declared => declared.1 = .default))).map (·.2))
  := by
  have hdefault : ([defaultArm statuses].find? fun arm => arm.pattern.accepts status)
      = some (defaultArm statuses) := List.find?_cons_of_pos rfl
  rw [classify, statusArms, List.find?_append, List.find?_append, hdefault,
    find?_exactArms [] statuses (List.not_mem_nil), find?_rangeArms]
  cases statuses.find? fun declared => declared.1 = .exact status with
  | some declared => simp [DeclaredStatus.arm_outcome]
  | none =>
      cases statuses.find? fun declared => declared.1.spans status with
      | some declared => simp [DeclaredStatus.arm_outcome]
      | none => simp [defaultArm]

/-- The outcome of a status is that of the first response with that very code, or else of the first
one whose range spans it, or else of the first default response. -/
theorem classify_responses (graph : TypeGraph) (responses : List HttpResponse) (status : Nat) :
  classify (statusArms (responses.map fun response => (response.status, response.outcome graph)))
      status
    = ((responses.find? fun response => response.status = .exact status).or
        ((responses.find? fun response => response.status.spans status).or
          (responses.find? fun response => response.status = .default))).map
        (HttpResponse.outcome graph)
  := by
  rw [classify_statusArms]
  simp only [List.find?_map, ← Option.map_or, Option.map_map]
  rfl

namespace Endpoint

variable {graph : TypeGraph} {endpoint : Endpoint}

/-- The response of an endpoint that decides on a status. -/
def decidingResponse? (endpoint : Endpoint) (status : Nat) : Option HttpResponse :=
  (endpoint.http.responses.find? fun response => response.status = .exact status).or
    ((endpoint.http.responses.find? fun response => response.status.spans status).or
      (endpoint.http.responses.find? fun response => response.status = .default))

/-- The outcome that the client of an endpoint takes a status for. -/
def outcomeOf (graph : TypeGraph) (endpoint : Endpoint) (status : Nat) : Option Outcome :=
  classify (statusArms (endpoint.statuses graph)) status

theorem outcomeOf_eq (graph : TypeGraph) (endpoint : Endpoint) (status : Nat) :
  endpoint.outcomeOf graph status
    = (endpoint.decidingResponse? status).map (HttpResponse.outcome graph) :=
  classify_responses graph endpoint.http.responses status

/-- A response that decides on a status is one of the endpoint. -/
theorem mem_of_decidingResponse? {status : Nat} {response : HttpResponse}
    (h : endpoint.decidingResponse? status = some response) :
  response ∈ endpoint.http.responses
  := by
  rcases Option.or_eq_some_iff.mp h with h | ⟨-, h⟩
  · apply List.mem_of_find?_eq_some h
  · rcases Option.or_eq_some_iff.mp h with h | ⟨-, h⟩
    · apply List.mem_of_find?_eq_some h
    · apply List.mem_of_find?_eq_some h

/-- A status that a response declares is decided on by a response that declares it. -/
theorem exists_decidingResponse {status : Nat} {response : HttpResponse}
    (hmem : response ∈ endpoint.http.responses) (h : response.status.declares status) :
  ∃ deciding, endpoint.decidingResponse? status = some deciding
    ∧ deciding.status.declares status
  := by
  rw [decidingResponse?]
  cases hexact : endpoint.http.responses.find? fun response => response.status = .exact status with
  | some deciding =>
      have hdeciding : deciding.status = .exact status := by simpa using List.find?_some hexact
      exact ⟨deciding, rfl, by simp [StatusCode.declares, hdeciding]⟩
  | none =>
      have hnone : response.status ≠ .exact status := by
        simpa using List.find?_eq_none.mp hexact response hmem
      have hspans : response.status.spans status := by
        simpa [StatusCode.declares, hnone] using h
      obtain ⟨deciding, hdeciding⟩ : ∃ deciding, endpoint.http.responses.find?
          (fun response => response.status.spans status) = some deciding := by
        rw [← Option.isSome_iff_exists, List.find?_isSome]
        use response, hmem
      have hfound : deciding.status.spans status := by simpa using List.find?_some hdeciding
      rw [hdeciding]
      exact ⟨deciding, rfl, by simp [StatusCode.declares, hfound]⟩

/-- A response that is no error is declared with a code or a range. -/
theorem status_of_success {response : HttpResponse} (h : response.outcome graph = .success) :
  (∃ code, response.status = .exact code) ∨ ∃ start stop, response.status = .range start stop
  := by
  cases hstatus : response.status with
  | exact code => exact Or.inl ⟨code, rfl⟩
  | range start stop => exact Or.inr ⟨start, stop, rfl⟩
  | default => simp [HttpResponse.outcome, hstatus, StatusCode.isError] at h

/-! ### Success -/

theorem outcome_of_successResponse? {response : HttpResponse}
    (h : endpoint.successResponse? graph = some response) :
  response ∈ endpoint.http.responses ∧ response.outcome graph = .success :=
  ⟨List.mem_of_find?_eq_some h, by simpa using List.find?_some h⟩

/-- The status of a success is that of the first success response: its code or where its range
starts. -/
theorem successStatus_of_response {response : HttpResponse} (isVoid : Bool)
    (h : endpoint.successResponse? graph = some response) :
  response.status = .exact (endpoint.successStatus graph isVoid)
    ∨ ∃ stop, response.status = .range (endpoint.successStatus graph isVoid) stop
  := by
  rw [successStatus, h]
  rcases status_of_success (outcome_of_successResponse? h).2 with
    ⟨code, hstatus⟩ | ⟨start, stop, hstatus⟩
  · rw [Option.map_some, hstatus]
    apply Or.inl rfl
  · rw [Option.map_some, hstatus]
    exact Or.inr ⟨stop, rfl⟩

/-- Without a success response the status of a success tells whether there is a value. -/
theorem successStatus_of_none (isVoid : Bool) (h : endpoint.successResponse? graph = none) :
  endpoint.successStatus graph isVoid = if isVoid then 204 else 200
  := by
  rw [successStatus, h]
  rfl

/-- A client accepts a status that a success response declares and no error response. -/
theorem outcomeOf_of_undisputed {response : HttpResponse} {status : Nat}
    (hmem : response ∈ endpoint.http.responses) (hdeclares : response.status.declares status)
    (h : ∀ other ∈ endpoint.http.responses, other.outcome graph = .error →
      other.status.declares status = false) :
  endpoint.outcomeOf graph status = some .success
  := by
  obtain ⟨deciding, hdeciding, hstatus⟩ := exists_decidingResponse hmem hdeclares
  rw [outcomeOf_eq, hdeciding, Option.map_some]
  cases houtcome : deciding.outcome graph with
  | success => rfl
  | error =>
      rw [h deciding (mem_of_decidingResponse? hdeciding) houtcome] at hstatus
      cases hstatus

/-- A client accepts no status if no success response is declared. -/
theorem outcomeOf_of_none (h : endpoint.successResponse? graph = none) (status : Nat) :
  endpoint.outcomeOf graph status ≠ some .success
  := by
  intro houtcome
  rw [outcomeOf_eq, Option.map_eq_some_iff] at houtcome
  obtain ⟨deciding, hdeciding, houtcome⟩ := houtcome
  apply List.find?_eq_none.mp h deciding (mem_of_decidingResponse? hdeciding)
  simpa using houtcome

end Endpoint

end ServiceBindings
