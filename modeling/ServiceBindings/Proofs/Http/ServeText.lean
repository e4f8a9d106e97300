import Mathlib.Data.List.Forall2
import ServiceBindings.Proofs.Http.Classification
import ServiceBindings.Proofs.Naming.Words

/-!
# Reading the methods of the server

A method of the server is read back from its lines: the struct that it builds from the request, with
its fields, and what it does with them.  It fails with the name of a parameter, or it calls a method
of a backend by a statement and answers.
-/

namespace ServiceBindings

open Text

/-! ### The parameters -/

namespace ParametersLiteral

/-- The fields in the literal up to its end, and the lines after it. -/
def readFields? : List String → Option (List String × List String)
  | [] => none
  | line :: rest =>
    if line = "\x7d;" then some ([], rest)
    else
      ((Code.unindentLine? line).bind Code.readFieldName?).bind fun name =>
        (readFields? rest).map fun (names, rest) => (name :: names, rest)

/-- The struct and the fields of the literal that is bound first, and the lines after it. -/
def read? : List String → Option (String × List String × List String)
  | [] => none
  | line :: rest =>
    (after? "let parameters = " line).bind fun literal =>
      match before? " \x7b\x7d;" literal with
      | some path => some (path, [], rest)
      | none => (before? " \x7b" literal).bind fun path => (readFields? rest).map (path, ·)

theorem readFields?_append {fields : List (String × String)}
    (h : ∀ field ∈ fields, ':' ∉ field.1.toList) (rest : List String) :
  readFields? (Code.indent (fields.map fun (field, value) => field ++ ": " ++ value ++ ",")
      ++ "\x7d;" :: rest)
    = some (fields.map Prod.fst, rest)
  := by
  rw [Code.indent_map (by simp)]
  induction fields with
  | nil => rfl
  | cons field fields ih =>
      obtain ⟨hfield, hfields⟩ := List.forall_mem_cons.mp h
      obtain ⟨name, value⟩ := field
      have hopen : "    " ++ (name ++ ": " ++ value ++ ",") ≠ "\x7d;" :=
        append_ne_of_clash (by decide) _
      have hline : Code.unindentLine? ("    " ++ (name ++ ": " ++ value ++ ","))
          = some (name ++ ": " ++ (value ++ ",")) := by
        rw [Code.unindentLine?, if_neg (by simp), after?_append, String.append_assoc]
      rw [List.map_cons, List.cons_append, readFields?]
      dsimp only
      rw [if_neg hopen, hline, Option.bind_some, Code.readFieldName?_append hfield,
        Option.bind_some, ih hfields]
      rfl

/-- The statement that builds the parameters is read back. -/
theorem read?_parametersStatement (path : String) {fields : List (String × String)}
    (h : ∀ field ∈ fields, ':' ∉ field.1.toList) (rest : List String) :
  read? (parametersStatement path fields ++ rest) = some (path, fields.map Prod.fst, rest)
  := by
  by_cases hfields : fields = []
  · subst hfields
    rw [parametersStatement, if_pos List.isEmpty_nil, List.singleton_append, read?,
      String.append_assoc, after?_append, Option.bind_some, before?_append]
    rfl
  · rw [parametersStatement, if_neg (by simpa using hfields), List.cons_append, List.cons_append,
      read?, String.append_assoc, after?_append, Option.bind_some,
      before?_append_of_clash (by decide)]
    dsimp only
    rw [before?_append, Option.bind_some, List.append_assoc, List.singleton_append,
      readFields?_append h]
    rfl

end ParametersLiteral

/-! ### Answers -/

namespace SuccessAnswer

/-- What the arm of a success sends. -/
def read? (host line : String) : Option SuccessAnswer :=
  match after? "Ok(_) => " line with
  | some rest =>
    (((after? (host ++ "::Response::empty(") rest).bind (before? "),")).bind fun status =>
      readCode? status.toList).map empty
  | none =>
    match before? ", &value)," line with
    | some start =>
      ((after? ("Ok(value) => " ++ host ++ "::Response::json(") start).bind fun status =>
        readCode? status.toList).map json
    | none => if line = "Ok(value) => match value \x7b\x7d," then some never else none

/-- The arm of a success is read back. -/
theorem read?_line (host : String) (answer : SuccessAnswer) :
  read? host (answer.line host) = some answer
  := by
  have hcode (n : Nat) : readCode? (toString n).toList = some n := by
    rw [← readCode?_toDigits n, ← Nat.toList_repr]
    rfl
  cases answer with
  | never =>
      have hline : after? "Ok(_) => " "Ok(value) => match value \x7b\x7d," = none
          ∧ before? ", &value)," "Ok(value) => match value \x7b\x7d," = none := by
        decide
      unfold line read?
      rw [hline.1]
      dsimp only
      rw [hline.2]
      rfl
  | empty status =>
      have hempty : after? (host ++ "::Response::empty(")
          (host ++ ("::Response::empty(" ++ (toString status ++ "),")))
            = some (toString status ++ "),") := by
        rw [← String.append_assoc, after?_append]
      unfold line read?
      simp only [String.append_assoc]
      rw [after?_append]
      dsimp only
      rw [hempty, Option.bind_some, before?_append, Option.bind_some, hcode, Option.map_some]
  | json status =>
      have hjson : after? ("Ok(value) => " ++ host ++ "::Response::json(")
          ("Ok(value) => " ++ host ++ "::Response::json(" ++ toString status)
            = some (toString status) := after?_append _ _
      have hother : after? "Ok(_) => " ("Ok(value) => " ++ host ++ "::Response::json("
          ++ toString status ++ ", &value),") = none := by
        simp only [String.append_assoc]
        apply after?_append_of_clash (by decide)
      unfold line read?
      rw [hother]
      dsimp only
      rw [before?_append]
      dsimp only
      rw [hjson, Option.bind_some, hcode, Option.map_some]

end SuccessAnswer

/-- What a method of the server does with the parameters, as it is read. -/
inductive ActionReading where
  /-- It fails, because a parameter is bound to nothing. -/
  | missing (parameter : String)
  /-- It runs the statement of a call, and answers. -/
  | call (statement : String) (answer : SuccessAnswer)
  deriving DecidableEq, Repr

namespace ActionReading

/-- What lines do. -/
def read? (host : String) : List String → Option ActionReading
  | [line] =>
    (literalBetween? ("Err(" ++ host ++ "::ExtractError::missing(") "))" line).map missing
  | [statement, opening, success, failure, closing] =>
    if opening = "Ok(match result \x7b" ∧ closing = "\x7d)"
        ∧ failure = "    Err(error) => " ++ host ++ "::Response::operation_error(&error)," then
      ((after? "    " success).bind (SuccessAnswer.read? host)).map (call statement)
    else none
  | _ => none

end ActionReading

/-- What the lines of an action do. -/
def ServeAction.reading (backend : String) : ServeAction → ActionReading
  | unbound parameter => .missing parameter
  | call served answer =>
    .call ("let result = self." ++ backend ++ "." ++ served.text ++ ".await;") answer

theorem SuccessAnswer.line_ne_empty (host : String) (answer : SuccessAnswer) :
  answer.line host ≠ ""
  := by
  unfold line
  split <;> simp

/-- An action is read back. -/
theorem ActionReading.read?_lines (host backend : String) (action : ServeAction) :
  read? host (action.lines host backend) = some (action.reading backend)
  := by
  cases action with
  | unbound parameter =>
      have hliteral := literalBetween?_append ("Err(" ++ host ++ "::ExtractError::missing(") "))"
        parameter
      unfold ServeAction.lines read?
      dsimp only
      rw [hliteral]
      rfl
  | call served answer =>
      have hindent : Code.indent [answer.line host,
            "Err(error) => " ++ host ++ "::Response::operation_error(&error),"]
          = ["    " ++ answer.line host,
            "    Err(error) => " ++ host ++ "::Response::operation_error(&error),"] := by
        rw [Code.indent_eq_map (by simp [answer.line_ne_empty])]
        simp only [List.map_cons, List.map_nil, ← String.append_assoc]
        rfl
      unfold ServeAction.lines
      dsimp only
      rw [hindent]
      simp only [List.cons_append, List.nil_append]
      rw [read?, if_pos ⟨rfl, rfl, rfl⟩, after?_append, Option.bind_some,
        SuccessAnswer.read?_line]
      rfl

/-! ### Methods -/

/-- What a method of the server is read as. -/
structure ServeReading where
  /-- The struct of the parameters. -/
  path : String
  fields : List String
  action : ActionReading
  deriving DecidableEq, Repr

namespace ServeMethod

/-- What the method of a name does, from its attribute and its block. -/
def read? (host name : String) : List String → Option ServeReading
  | [] => none
  | _ :: rest =>
    (Code.readBoundedBlock? rest).bind fun (head, _, body) =>
      (after? ("async fn " ++ name ++ "<R>(") head).bind fun _ =>
        (ParametersLiteral.read? body).bind fun (path, fields, rest) =>
          (ActionReading.read? host rest).map fun action => ⟨path, fields, action⟩

/-- The head of a method. -/
def head (host : String) (method : ServeMethod) : String :=
  "async fn " ++ method.endpoint.serveName ++ "<R>(&mut self, request: &R"
    ++ String.join
      (method.endpoint.pathFields.map fun field => ", " ++ captureName field ++ ": &str")
    ++ ") -> ::core::result::Result<" ++ host ++ "::Response, " ++ host ++ "::ExtractError>"

/-- The lines of a method after its documentation. -/
theorem tail_lines (host : String) (method : ServeMethod) :
  (method.lines host).tail = "#[allow(unused_variables)]"
    :: Code.boundedBlock (method.head host) (requestBound host)
      (parametersStatement method.parametersPath method.fields
        ++ method.action.lines host method.backend) :=
  rfl

/-- A method is read back. -/
theorem read?_lines (host : String) {method : ServeMethod}
    (h : ∀ field ∈ method.fields, ':' ∉ field.1.toList) :
  read? host method.endpoint.serveName (method.lines host).tail
    = some ⟨method.parametersPath, method.fields.map Prod.fst,
      method.action.reading method.backend⟩
  := by
  have hname : ∃ rest, after? ("async fn " ++ method.endpoint.serveName ++ "<R>(")
      (method.head host) = some rest := by
    have hreceiver : "<R>(&mut self, request: &R" = "<R>(" ++ "&mut self, request: &R" := rfl
    have hsplit (rest : String) := after?_append
      ("async fn " ++ method.endpoint.serveName ++ "<R>(") rest
    simp only [String.append_assoc] at hsplit
    unfold head
    rw [hreceiver]
    simp only [String.append_assoc]
    exact ⟨_, hsplit _⟩
  obtain ⟨rest, hrest⟩ := hname
  rw [tail_lines, read?, Code.readBoundedBlock?_boundedBlock, Option.bind_some]
  dsimp only
  rw [hrest, Option.bind_some, ParametersLiteral.read?_parametersStatement _ h, Option.bind_some]
  dsimp only
  rw [ActionReading.read?_lines]
  rfl

/-- The lines of a method stand in those of the server. -/
theorem isInfix_serverLines (host name : String) (backends : List Backend)
    {methods : List ServeMethod} {method : ServeMethod} (h : method ∈ methods) :
  Code.indent (method.lines host).tail <:+: serverLines host name backends methods
  := by
  refine List.IsInfix.trans ?_
    (List.IsSuffix.isInfix ((List.suffix_cons "" _).trans (List.suffix_append _ _)))
  refine List.IsInfix.trans ?_ (Code.isInfix_boundedBlock _ _ _)
  apply List.IsInfix.map
  apply (List.tail_suffix _).isInfix.trans
  apply Code.isInfix_separated
  apply List.mem_cons_of_mem _ (List.mem_cons_of_mem _ (List.mem_map_of_mem h))

/-- The struct of the server has a field for each backend, and its methods ask for the traits. -/
theorem backend_mem_serverLines (host name : String) {backends : List Backend}
    (methods : List ServeMethod) {backend : Backend} (h : backend ∈ backends) :
  ("    pub " ++ backend.field ++ ": " ++ backend.typeParameter ++ ",")
      ∈ serverLines host name backends methods
    ∧ ("    " ++ backend.typeParameter ++ ": " ++ backend.bound ++ ",")
      ∈ serverLines host name backends methods
  := by
  constructor
  · have hfield : "    " ++ ("pub " ++ (backend.field ++ ": " ++ backend.typeParameter) ++ ",")
        ∈ Code.indent
          ((backends.map fun backend => backend.field ++ ": " ++ backend.typeParameter).map
            fun field => "pub " ++ field ++ ",") :=
      Code.mem_indent (List.mem_map_of_mem (List.mem_map_of_mem h)) (by simp)
    have hmargin : "    pub " = "    " ++ "pub " := rfl
    have hline : "    pub " ++ backend.field ++ ": " ++ backend.typeParameter ++ ","
        = "    " ++ ("pub " ++ (backend.field ++ ": " ++ backend.typeParameter) ++ ",") := by
      rw [hmargin]
      simp only [String.append_assoc]
    rw [hline]
    apply List.mem_append_left
    apply List.mem_cons_of_mem _ (List.mem_cons_of_mem _ _)
    apply List.mem_append_left
    apply List.mem_cons_of_mem _ hfield
  · have hbound : "    " ++ (backend.typeParameter ++ ": " ++ backend.bound ++ ",") ∈ Code.indent
        (backends.map fun backend => backend.typeParameter ++ ": " ++ backend.bound ++ ",") :=
      Code.mem_indent (List.mem_map_of_mem h) (by simp)
    have hline : "    " ++ backend.typeParameter ++ ": " ++ backend.bound ++ ","
        = "    " ++ (backend.typeParameter ++ ": " ++ backend.bound ++ ",") := by
      simp only [String.append_assoc]
    rw [hline]
    apply List.mem_append_right
    apply List.mem_cons_of_mem
    apply List.mem_append_left
    apply List.mem_append_left
    apply List.mem_cons_of_mem _ (List.mem_cons_of_mem _ hbound)

/-- Whether what a method is put together from has no line feeds. -/
structure IsLegible (method : ServeMethod) : Prop where
  serveName : '\n' ∉ method.endpoint.serveName.toList
  captures : ∀ field ∈ method.endpoint.pathFields, '\n' ∉ (captureName field).toList
  parametersPath : '\n' ∉ method.parametersPath.toList
  fields : ∀ field ∈ method.fields, '\n' ∉ field.1.toList ∧ '\n' ∉ field.2.toList
  backend : '\n' ∉ method.backend.toList
  call : ∀ call answer, method.action = .call call answer → '\n' ∉ call.text.toList

theorem isLine_parametersStatement {path : String} {fields : List (String × String)}
    (hpath : '\n' ∉ path.toList)
    (h : ∀ field ∈ fields, '\n' ∉ field.1.toList ∧ '\n' ∉ field.2.toList) :
  ∀ line ∈ parametersStatement path fields, IsLine line
  := by
  have hhead : '\n' ∉ ("let parameters = " ++ path).toList := by
    simp [hpath]
  have hfields : ∀ line ∈ fields.map (fun (field, value) => field ++ ": " ++ value ++ ","),
      IsLine line := by
    intro line hline
    obtain ⟨field, hfield, rfl⟩ := List.mem_map.mp hline
    obtain ⟨hname, hvalue⟩ := h field hfield
    apply isLine_append _ (by decide) (by decide)
    simp [hname, hvalue]
  rw [parametersStatement]
  dsimp only
  split
  case isTrue =>
    rw [List.forall_mem_singleton]
    apply isLine_append hhead (by decide) (by decide)
  case isFalse =>
    rw [List.cons_append, List.forall_mem_cons, List.forall_mem_append]
    exact ⟨isLine_append hhead (by decide) (by decide), Code.isLine_indent hfields, by decide⟩

theorem isLine_answer {host : String} (hhost : '\n' ∉ host.toList) (answer : SuccessAnswer) :
  IsLine (answer.line host)
  := by
  have hcode (n : Nat) : '\n' ∉ Nat.toDigits 10 n := by
    intro hmem
    cases isDigit_of_mem_toDigits hmem
  have hnever : IsLine "Ok(value) => match value \x7b\x7d," := by decide
  cases answer with
  | never => apply hnever
  | empty status =>
      apply isLine_append _ (by decide) (by decide)
      simp [hhost, hcode]
  | json status =>
      apply isLine_append _ (by decide) (by decide)
      simp [hhost, hcode]

theorem IsLegible.isLine_action {method : ServeMethod} (h : method.IsLegible) {host : String}
    (hhost : '\n' ∉ host.toList) :
  ∀ line ∈ method.action.lines host method.backend, IsLine line
  := by
  cases haction : method.action with
  | unbound parameter =>
      unfold ServeAction.lines
      rw [List.forall_mem_singleton]
      apply isLine_append _ (by decide) (by decide)
      simp [hhost, feed_not_mem_quoted]
  | call served answer =>
      have hcall := h.call served answer haction
      have hfailure :
          IsLine ("Err(error) => " ++ host ++ "::Response::operation_error(&error),") := by
        apply isLine_append _ (by decide) (by decide)
        simp [hhost]
      unfold ServeAction.lines
      dsimp only
      rw [List.cons_append, List.cons_append, List.forall_mem_cons,
        List.forall_mem_cons, List.forall_mem_append]
      refine ⟨?_, by decide, Code.isLine_indent ?_, by decide⟩
      · apply isLine_append _ (by decide) (by decide)
        simp [h.backend, hcall]
      · rw [List.forall_mem_cons, List.forall_mem_singleton]
        exact ⟨isLine_answer hhost answer, hfailure⟩

/-- The lines of a method after its documentation are one line each. -/
theorem IsLegible.isLine_tail {method : ServeMethod} (h : method.IsLegible) {host : String}
    (hhost : '\n' ∉ host.toList) :
  ∀ line ∈ Code.indent (method.lines host).tail, IsLine line
  := by
  have hcaptures : '\n' ∉ (String.join (method.endpoint.pathFields.map
      fun field => ", " ++ captureName field ++ ": &str")).toList := by
    apply Code.feed_not_mem_join
    intro text htext
    obtain ⟨field, hfield, rfl⟩ := List.mem_map.mp htext
    simp [h.captures field hfield]
  have hhead : IsLine (method.head host) := by
    apply isLine_append _ (by decide) (by decide)
    simp only [String.toList_append, List.mem_append, not_or]
    exact ⟨⟨⟨⟨⟨⟨⟨by decide, h.serveName⟩, by decide⟩, hcaptures⟩, by decide⟩, hhost⟩, by decide⟩,
      hhost⟩
  have hbound : ∀ line ∈ requestBound host, IsLine line := by
    rw [requestBound, List.forall_mem_singleton]
    apply isLine_append _ (by decide) (by decide)
    simp [hhost]
  apply Code.isLine_indent
  rw [tail_lines, List.forall_mem_cons]
  refine ⟨by decide, Code.isLine_boundedBlock hhead hbound ?_⟩
  rw [List.forall_mem_append]
  exact ⟨isLine_parametersStatement h.parametersPath h.fields, h.isLine_action hhost⟩

end ServeMethod

end ServiceBindings
