import Mathlib.Data.List.Induction
import ServiceBindings.Proofs.Http.RouterText
import ServiceBindings.Proofs.Naming.Identifier
import ServiceBindings.Proofs.Route.Binding

/-!
# What the router does

The router is code: tests on the rest of the path, variables for what is captured, and a choice by
method at the end.  The expression that is read from its text evaluates to what resolving in the
route tree gives.  A field of the variant takes the text that was bound last to a name with the same
variable.
-/

namespace ServiceBindings

/-! ### Evaluation -/

/-- The variables in scope with their texts, the latest first. -/
abbrev CaptureScope := List (String × List Char)

/-- A variant with the texts of its fields. -/
structure RouteAnswer where
  variant : String
  fields : List (String × List Char)
  deriving DecidableEq, Repr

/-- The variant with the texts that its fields take from variables, all of which must be in scope. -/
def RouteVariant.construct (variant : RouteVariant) (scope : CaptureScope) : Option RouteAnswer :=
  (variant.fields.mapM fun field =>
      (scope.lookup (captureName field)).map fun text => (field, text))
    |>.map fun fields => ⟨variant.name, fields⟩

/-- What is left of a path after a test that holds. -/
def PathTest.rest? (path : List Char) : PathTest → Option (List Char)
  | .isEmpty => if path.isEmpty then some path else none
  | .startsWith text => if text.isPrefixOf path then some (path.drop text.length) else none

theorem mapM_lookup {scope : CaptureScope} {names : List String}
    {fields : List (String × List Char)} :
  (names.mapM fun field => (scope.lookup (captureName field)).map fun text => (field, text))
      = some fields
    ↔ fields.map (·.1) = names
      ∧ ∀ field ∈ fields, scope.lookup (captureName field.1) = some field.2
  := by
  induction names generalizing fields with
  | nil =>
      simp only [List.mapM_nil, List.map_eq_nil_iff, Option.pure_def, Option.some.injEq]
      constructor
      · rintro rfl
        simp
      · rintro ⟨rfl, -⟩
        rfl
  | cons name names ih =>
      simp only [List.mapM_cons, Option.bind_eq_bind, Option.bind_eq_some_iff,
        Option.map_eq_some_iff, ih, Option.pure_def, Option.some.injEq]
      constructor
      · rintro ⟨_, ⟨text, htext, rfl⟩, rest, ⟨rfl, hrest⟩, rfl⟩
        rw [List.forall_mem_cons]
        use rfl, htext
      · rintro ⟨hnames, hfields⟩
        obtain ⟨first, rest, rfl, rfl, rfl⟩ := List.map_eq_cons_iff.mp hnames
        obtain ⟨hfirst, hrest⟩ := List.forall_mem_cons.mp hfields
        use first
        constructor
        · use first.2
        · use rest

/-- A variant is constructed exactly if its fields take the texts of their variables. -/
theorem RouteVariant.construct_eq_some {variant : RouteVariant} {scope : CaptureScope}
    {answer : RouteAnswer} :
  variant.construct scope = some answer
    ↔ answer.variant = variant.name ∧ answer.fields.map (·.1) = variant.fields
      ∧ ∀ field ∈ answer.fields, scope.lookup (captureName field.1) = some field.2
  := by
  obtain ⟨name, fields⟩ := answer
  simp only [construct, Option.map_eq_some_iff, mapM_lookup, RouteAnswer.mk.injEq]
  constructor
  · rintro ⟨_, hfields, rfl, rfl⟩
    use rfl
  · rintro ⟨rfl, hfields⟩
    use fields, hfields

/-- A variant is constructed if the variables of its fields are in scope. -/
theorem RouteVariant.exists_construct {variant : RouteVariant} {scope : CaptureScope}
    (h : ∀ field ∈ variant.fields, scope.lookup (captureName field) ≠ none) :
  ∃ answer, variant.construct scope = some answer
  := by
  use ⟨variant.name, variant.fields.map fun field =>
    (field, (scope.lookup (captureName field)).getD [])⟩
  rw [construct_eq_some]
  use rfl
  constructor
  · rw [List.map_map]
    apply List.map_id
  · intro field hfield
    obtain ⟨name, hname, rfl⟩ := List.mem_map.mp hfield
    obtain ⟨text, htext⟩ := Option.ne_none_iff_exists'.mp (h name hname)
    simp [htext]

namespace RouterExpr

/-- The scope after a text was bound to variables in turn. -/
def bindAll (captured : List Char) (bound : List String) (scope : CaptureScope) : CaptureScope :=
  bound.foldl (fun scope name => (name, captured) :: scope) scope

mutual

/-- The value of an expression for a method and a path; there is none if a variable is used that is
not in scope. -/
def eval (method : String) : RouterExpr → CaptureScope → List Char →
    Option (Except RouteFailure RouteAnswer)
  | notFound, _, _ => some (.error .notFound)
  | dispatch arms, scope, _ =>
    match arms.find? fun arm => arm.1.text = method with
    | some arm => (arm.2.construct scope).map .ok
    | none => some (.error .methodNotAllowed)
  | branch arms otherwise, scope, path =>
    match evalArms method arms scope path with
    | some result => result
    | none => eval method otherwise scope path
  | capture bound body, scope, path =>
    let (captured, path) := path.splitAt (path.findIdx (· == '/'))
    if captured.isEmpty then some (.error .notFound)
    else eval method body (bindAll captured bound scope) path

/-- The value of the first branch whose test holds. -/
def evalArms (method : String) : List (PathTest × RouterExpr) → CaptureScope → List Char →
    Option (Option (Except RouteFailure RouteAnswer))
  | [], _, _ => none
  | (test, body) :: rest, scope, path =>
    match test.rest? path with
    | some path => some (eval method body scope path)
    | none => evalArms method rest scope path

end

/-! ### Scopes and bindings -/

/-- The scope that bindings of parameter names make. -/
def scopeOf (bindings : List (String × List Char)) : CaptureScope :=
  (bindings.map fun binding => (captureName (Identifier.valueName binding.1), binding.2)).reverse

theorem bindAll_eq (captured : List Char) (bound : List String) (scope : CaptureScope) :
  bindAll captured bound scope = (bound.map fun name => (name, captured)).reverse ++ scope
  := by
  induction bound generalizing scope with
  | nil => rfl
  | cons name bound ih =>
      rw [bindAll, List.foldl_cons, ← bindAll, ih, List.map_cons, List.reverse_cons,
        List.append_assoc]
      rfl

/-- Binding the variables of names is binding the names. -/
theorem bindAll_scopeOf (captured : List Char) (names : List String)
    (bindings : List (String × List Char)) :
  bindAll captured (names.map fun name => captureName (Identifier.valueName name))
      (scopeOf bindings)
    = scopeOf (bindings ++ names.map fun name => (name, captured))
  := by
  rw [bindAll_eq, scopeOf, scopeOf, List.map_append, List.reverse_append, List.map_map,
    List.map_map]
  rfl

/-- A variable holds the text that was bound last to a name with this variable. -/
theorem lookup_scopeOf (param : String) (bindings : List (String × List Char)) :
  (scopeOf bindings).lookup param
    = lastBound (fun name => captureName (Identifier.valueName name) = param) bindings
  := by
  induction bindings using List.reverseRecOn with
  | nil => rfl
  | append_singleton bindings binding ih =>
      have hscope : scopeOf (bindings ++ [binding])
          = (captureName (Identifier.valueName binding.1), binding.2) :: scopeOf bindings := by
        simp [scopeOf]
      rw [hscope, lastBound_append, List.lookup_cons, ih]
      by_cases h : captureName (Identifier.valueName binding.1) = param
      · simp [lastBound, h]
      · have hne : (param == captureName (Identifier.valueName binding.1)) = false :=
          beq_false_of_ne (Ne.symm h)
        simp [lastBound, h, hne]

/-! ### The choice by method -/

theorem text_injective {verb other : Verb} (h : verb.text = other.text) :
  verb = other
  := by
  revert h
  cases verb <;> cases other <;> decide

/-- Among the arms of the first terminals of each method, that of a method is the arm of its first
terminal. -/
theorem find_firstOfEachVerb (variants : List RouteVariant) (verb : Verb) (seen : List Verb)
    (terminals : List Terminal) :
  (((firstOfEachVerb seen terminals).filterMap fun terminal =>
      (variants[terminal.endpoint]?).map fun variant => (terminal.verb, variant)).find?
        fun arm => arm.1.text = verb.text)
    = if verb ∈ seen then none
      else (terminals.find? fun terminal => terminal.verb = verb).bind fun terminal =>
        (variants[terminal.endpoint]?).map fun variant => (terminal.verb, variant)
  := by
  have htext : ∀ other : Verb, other.text = verb.text ↔ other = verb :=
    fun other => ⟨text_injective, fun h => h ▸ rfl⟩
  simp only [htext]
  induction terminals generalizing seen with
  | nil => simp [firstOfEachVerb]
  | cons terminal terminals ih =>
      by_cases hseen : terminal.verb ∈ seen
      · rw [firstOfEachVerb, if_pos hseen, ih]
        by_cases hverb : terminal.verb = verb
        · rw [← hverb, if_pos hseen, if_pos hseen]
        · simp [hverb]
      · rw [firstOfEachVerb, if_neg hseen, List.filterMap_cons]
        by_cases hverb : terminal.verb = verb
        · subst hverb
          cases hvariant : variants[terminal.endpoint]? with
          | none => simp [ih, hseen, hvariant]
          | some variant => simp [hseen, hvariant]
        · cases hvariant : variants[terminal.endpoint]? with
          | none => simp [ih, hverb, Ne.symm hverb]
          | some variant => simp [ih, hverb, Ne.symm hverb]

/-! ### From the route tree -/

/-- What the router should answer where resolving gives a result. -/
def answerOf (variants : List RouteVariant) :
    Except RouteFailure RouteMatch → Option (Except RouteFailure RouteAnswer)
  | .error failure => some (.error failure)
  | .ok found =>
    match variants[found.endpoint]? with
    | some variant => (variant.construct (scopeOf found.bindings)).map .ok
    | none => some (.error .methodNotAllowed)

/-- The choice at a node is the choice among the routes that end there. -/
theorem eval_ofTerminals (variants : List RouteVariant) (terminals : List Terminal) (verb : Verb)
    (path : List Char) (bindings : List (String × List Char)) :
  (ofTerminals variants terminals).eval verb.text (scopeOf bindings) path
    = answerOf variants (RouteNode.choose verb bindings terminals)
  := by
  by_cases hempty : terminals.isEmpty
  · rw [ofTerminals, RouteNode.choose, if_pos hempty, if_pos hempty]
    rfl
  · rw [ofTerminals, RouteNode.choose, if_neg hempty, if_neg hempty, eval, find_firstOfEachVerb,
      if_neg List.not_mem_nil]
    cases terminals.find? fun terminal => terminal.verb = verb with
    | none => rfl
    | some terminal =>
        rw [Option.bind_some, answerOf]
        cases variants[terminal.endpoint]? with
        | none => rfl
        | some variant => rfl

/-- Stripping a text leaves what comes after it. -/
theorem rest_startsWith (text path : List Char) :
  (PathTest.startsWith text).rest? path = RouteNode.stripStart text path
  := by
  rw [PathTest.rest?]
  by_cases h : text <+: path
  · rw [if_pos (List.isPrefixOf_iff_prefix.mpr h)]
    symm
    apply RouteNode.stripStart_eq_some.mpr
    apply List.prefix_iff_eq_append.mp h |>.symm
  · rw [if_neg (List.isPrefixOf_iff_prefix.not.mpr h)]
    symm
    apply Option.eq_none_iff_forall_ne_some.mpr
    intro rest hrest
    apply h ⟨rest, (RouteNode.stripStart_eq_some.mp hrest).symm⟩

/-- Splitting at the next slash captures what comes before it. -/
theorem splitAt_slash (path : List Char) :
  path.splitAt (path.findIdx (· == '/'))
    = (path.takeWhile RouteNode.isCaptured, path.dropWhile RouteNode.isCaptured)
  := by
  have hslash : (fun c => !RouteNode.isCaptured c) = (· == '/') := by
    funext c
    simp [RouteNode.isCaptured, bne]
  rw [List.splitAt_eq, List.takeWhile_eq_take_findIdx_not, List.dropWhile_eq_drop_findIdx_not,
    hslash]

mutual

/-- The expression of a node evaluates to what resolving from the node gives. -/
theorem eval_ofNode (variants : List RouteVariant) (verb : Verb) (node : RouteNode)
    (path : List Char) (bindings : List (String × List Char)) :
  (ofNode variants node).eval verb.text (scopeOf bindings) path
    = answerOf variants (node.resolveFrom verb path bindings)
  := by
  match node with
  | .mk terminals literals parameter =>
      rw [ofNode, eval, evalArms, PathTest.rest?, RouteNode.resolveFrom]
      by_cases hempty : path.isEmpty
      · rw [if_pos hempty, if_pos hempty]
        apply eval_ofTerminals
      · rw [if_neg hempty, if_neg hempty]
        simp only [evalArms_ofLiterals variants verb literals path bindings]
        cases RouteNode.resolveLiterals verb literals path bindings with
        | none => apply eval_ofParameter
        | some result => rfl

/-- The branches of literal edges evaluate to what resolving below them gives. -/
theorem evalArms_ofLiterals (variants : List RouteVariant) (verb : Verb)
    (edges : List (List Char × RouteNode)) (path : List Char)
    (bindings : List (String × List Char)) :
  evalArms verb.text (ofLiterals variants edges) (scopeOf bindings) path
    = (RouteNode.resolveLiterals verb edges path bindings).map (answerOf variants)
  := by
  match edges with
  | [] => rfl
  | (text, node) :: rest =>
      rw [ofLiterals, evalArms, rest_startsWith, RouteNode.resolveLiterals]
      cases RouteNode.stripStart text path with
      | none => apply evalArms_ofLiterals
      | some path =>
          simp only [Option.map_some, eval_ofNode variants verb node path bindings]

/-- The expression of a parameter edge evaluates to what resolving below it gives. -/
theorem eval_ofParameter (variants : List RouteVariant) (verb : Verb)
    (parameter : Option (List String × RouteNode)) (path : List Char)
    (bindings : List (String × List Char)) :
  (ofParameter variants parameter).eval verb.text (scopeOf bindings) path
    = answerOf variants (RouteNode.resolveParameter verb parameter path bindings)
  := by
  match parameter with
  | none => rfl
  | some (names, node) =>
      rw [ofParameter, eval, splitAt_slash, RouteNode.resolveParameter]
      by_cases hempty : (path.takeWhile RouteNode.isCaptured).isEmpty
      · simp only [if_pos hempty]
        rfl
      · simp only [if_neg hempty, bindAll_scopeOf]
        apply eval_ofNode

end

end RouterExpr

/-! ### Variables of fields -/

/-- Parameters without a mark of raw identifiers share a variable exactly if they share a field. -/
theorem captureName_eq_iff {first second : String} (hfirst : ¬Identifier.IsRaw (snakeCase first))
    (hsecond : ¬Identifier.IsRaw (snakeCase second)) :
  captureName (Identifier.valueName first) = captureName (Identifier.valueName second)
    ↔ Identifier.valueName first = Identifier.valueName second
  := by
  constructor
  · intro h
    apply Identifier.escape_eq_of_dropRaw hfirst hsecond
    simpa [captureName, Identifier.valueName] using h
  · intro h
    rw [h]

/-! ### The router of endpoints -/

namespace Endpoint

open RouterExpr

variable {endpoints : List Endpoint} {verb : Verb} {path : List Char} {found : RouteMatch}

/-- The router evaluates to the answer for what resolving gives. -/
theorem eval_router_eq (endpoints : List Endpoint) (verb : Verb) (path : List Char) :
  (router endpoints).eval verb.text [] path
    = answerOf (endpoints.map routeVariant) ((routes endpoints).resolve verb path) :=
  eval_ofNode (endpoints.map routeVariant) verb (routes endpoints) path []

/-- The variant of an endpoint takes, for each parameter of the path, the text that was bound last
to a name with the same variable. -/
theorem construct_routeVariant {endpoint : Endpoint} {bindings : List (String × List Char)}
    {answer : RouteAnswer} :
  endpoint.routeVariant.construct (scopeOf bindings) = some answer
    ↔ answer.variant = endpoint.typeName ∧ answer.fields.map (·.1) = endpoint.pathFields
      ∧ ∀ field ∈ answer.fields, lastBound
          (fun name => captureName (Identifier.valueName name) = captureName field.1) bindings
            = some field.2
  := by
  rw [RouteVariant.construct_eq_some]
  simp only [lookup_scopeOf, routeVariant]

theorem tidy_of_mem_routes (endpoints : List Endpoint) :
  ∀ route ∈ endpoints.zipIdx.map fun (endpoint, i) =>
      Route.ofTemplate i endpoint.http.verb endpoint.http.path, Template.Tidy route.segments
  := by
  intro route hroute
  obtain ⟨⟨endpoint, i⟩, -, rfl⟩ := List.mem_map.mp hroute
  apply Template.tidy_parse

/-- An endpoint that serves a request exists, and what its fields are made from is bound. -/
theorem exists_endpoint_of_resolve (h : (routes endpoints).resolve verb path = .ok found) :
  ∃ endpoint, endpoints[found.endpoint]? = some endpoint
    ∧ ∀ field ∈ endpoint.pathFields,
        ∃ binding ∈ found.bindings, Identifier.valueName binding.1 = field
  := by
  obtain ⟨route, hroute, hendpoint, -, values, hvalues, hfill, hbindings⟩ :=
    RouteNode.exists_of_resolve_eq_ok (tidy_of_mem_routes endpoints) h
  obtain ⟨⟨endpoint, i⟩, hmem, rfl⟩ := List.mem_map.mp hroute
  use endpoint
  constructor
  · rw [← hendpoint]
    apply List.mem_zipIdx_iff_getElem?.mp hmem
  · intro field hfield
    obtain ⟨name, hname, rfl⟩ := List.mem_map.mp (List.mem_eraseDups.mp hfield)
    rw [hbindings]
    obtain ⟨binding, hbinding, rfl⟩ :=
      RouteNode.exists_boundAlong_parameter hroute hvalues hfill hname
    use binding, hbinding

/-- The variant of an endpoint that serves a request is constructed from what is bound. -/
theorem exists_construct_of_resolve (h : (routes endpoints).resolve verb path = .ok found) :
  ∃ endpoint answer, endpoints[found.endpoint]? = some endpoint
    ∧ endpoint.routeVariant.construct (scopeOf found.bindings) = some answer
    ∧ (router endpoints).eval verb.text [] path = some (.ok answer)
  := by
  obtain ⟨endpoint, hendpoint, hfields⟩ := exists_endpoint_of_resolve h
  obtain ⟨answer, hanswer⟩ : ∃ answer,
      endpoint.routeVariant.construct (scopeOf found.bindings) = some answer := by
    apply RouteVariant.exists_construct
    intro field hfield hnone
    obtain ⟨binding, hbinding, rfl⟩ := hfields field hfield
    rw [lookup_scopeOf, lastBound_eq_none] at hnone
    simpa using hnone binding hbinding
  use endpoint, answer, hendpoint, hanswer
  rw [eval_router_eq, h, answerOf, List.getElem?_map, hendpoint]
  simp only [Option.map_some, hanswer]

/-- If no bound name has a mark of raw identifiers, then a field takes the text that was bound last
to a name with this field. -/
theorem lastBound_of_not_isRaw {endpoint : Endpoint}
    (h : (routes endpoints).resolve verb path = .ok found)
    (hendpoint : endpoints[found.endpoint]? = some endpoint)
    (hraw : ∀ binding ∈ found.bindings, ¬Identifier.IsRaw (snakeCase binding.1)) {field : String}
    (hfield : field ∈ endpoint.pathFields) :
  lastBound (fun name => captureName (Identifier.valueName name) = captureName field) found.bindings
    = lastBound (fun name => Identifier.valueName name = field) found.bindings
  := by
  obtain ⟨other, hother, hfields⟩ := exists_endpoint_of_resolve h
  obtain rfl : endpoint = other := Option.some.inj (hendpoint.symm.trans hother)
  obtain ⟨own, hown, rfl⟩ := hfields field hfield
  apply lastBound_congr
  intro binding hbinding
  rw [decide_eq_decide]
  apply captureName_eq_iff (hraw binding hbinding) (hraw own hown)

/-- If endpoints have different variants, then a variant is that of one endpoint. -/
theorem eq_of_typeName_eq (h : (endpoints.map typeName).Nodup) {i j : Nat} {first second : Endpoint}
    (hfirst : endpoints[i]? = some first) (hsecond : endpoints[j]? = some second)
    (heq : first.typeName = second.typeName) :
  i = j
  := by
  have hnames {k : Nat} {endpoint : Endpoint} (hk : endpoints[k]? = some endpoint) :
      (endpoints.map typeName)[k]? = some endpoint.typeName := by
    rw [List.getElem?_map, hk, Option.map_some]
  obtain ⟨hi, -⟩ := List.getElem?_eq_some_iff.mp (hnames hfirst)
  apply (List.getElem?_inj hi h).mp
  rw [hnames hfirst, hnames hsecond, heq]

/-- What the router in a text answers for a method and a path; there is no answer if the text is no
router or uses a variable that is not in scope. -/
def routed? (text method : String) (path : List Char) : Option (Except RouteFailure RouteAnswer) :=
  (readRouter? (Text.linesOf text)).bind fun body => body.eval method [] path

/-- The router, read from its text, agrees with resolving in the route tree.  It fails exactly if
resolving fails, and for the same reason.  It answers with a variant exactly if resolving gives an
endpoint with this variant, with a field for each parameter of the path, which holds the text that
was bound last to a name with the same variable.  All variables that it uses are in scope.  If no
bound name has a mark of raw identifiers, then a field holds the text that was bound last to a name
with this field.  If the endpoints have different variants, then the router answers with that of an
endpoint exactly if resolving gives this endpoint. -/
theorem eval_router (hnames : ∀ endpoint ∈ endpoints, endpoint.name.Parsed) (verb : Verb)
    (path : List Char) :
  let answer? := routed? (Text.unlines (routerLines endpoints)) verb.text path
  (∀ failure, answer? = some (.error failure)
    ↔ (routes endpoints).resolve verb path = .error failure)
  ∧ (∀ answer, answer? = some (.ok answer)
    ↔ ∃ found endpoint, (routes endpoints).resolve verb path = .ok found
      ∧ endpoints[found.endpoint]? = some endpoint
      ∧ answer.variant = endpoint.typeName ∧ answer.fields.map (·.1) = endpoint.pathFields
      ∧ ∀ field ∈ answer.fields, lastBound
          (fun name => captureName (Identifier.valueName name) = captureName field.1) found.bindings
            = some field.2)
  ∧ answer? ≠ none
  ∧ (∀ found answer, (routes endpoints).resolve verb path = .ok found →
      answer? = some (.ok answer) →
      (∀ binding ∈ found.bindings, ¬Identifier.IsRaw (snakeCase binding.1)) →
      ∀ field ∈ answer.fields,
        lastBound (fun name => Identifier.valueName name = field.1) found.bindings = some field.2)
  ∧ ((endpoints.map typeName).Nodup → ∀ i endpoint, endpoints[i]? = some endpoint →
      ((∃ answer, answer? = some (.ok answer) ∧ answer.variant = endpoint.typeName)
        ↔ ∃ found, (routes endpoints).resolve verb path = .ok found ∧ found.endpoint = i))
  := by
  have hrouted : routed? (Text.unlines (routerLines endpoints)) verb.text path
      = (router endpoints).eval verb.text [] path := by
    rw [routed?, readRouter?_routerLines hnames, Option.bind_some]
  rw [hrouted]
  cases hresolve : (routes endpoints).resolve verb path with
  | error failure =>
      have heval := eval_router_eq endpoints verb path
      rw [hresolve, answerOf] at heval
      simp [heval]
  | ok found =>
      obtain ⟨endpoint, answer, hendpoint, hanswer, heval⟩ := exists_construct_of_resolve hresolve
      obtain ⟨hvariant, hnames, hfields⟩ := construct_routeVariant.mp hanswer
      rw [heval]
      refine ⟨?_, ?_, ?_, ?_, ?_⟩
      · simp
      · intro other
        constructor
        · intro h
          obtain rfl := Except.ok.inj (Option.some.inj h)
          use found, endpoint
        · rintro ⟨_, _, hfound, hother, hconstruct⟩
          obtain rfl := Except.ok.inj hfound
          obtain rfl := Option.some.inj (hendpoint.symm.trans hother)
          have hsame := construct_routeVariant.mpr hconstruct
          rw [Option.some.inj (hanswer.symm.trans hsame)]
      · simp
      · intro _ _ hfound hother hraw field hfield
        obtain rfl := Except.ok.inj hfound
        obtain rfl := Except.ok.inj (Option.some.inj hother)
        have hmem : field.1 ∈ endpoint.pathFields := by
          rw [← hnames]
          apply List.mem_map_of_mem hfield
        rw [← lastBound_of_not_isRaw hresolve hendpoint hraw hmem]
        apply hfields field hfield
      · intro hdistinct i other hother
        constructor
        · rintro ⟨_, hsame, htype⟩
          obtain rfl := Except.ok.inj (Option.some.inj hsame)
          use found, rfl
          apply eq_of_typeName_eq hdistinct hendpoint hother (hvariant.symm.trans htype)
        · rintro ⟨_, hfound, rfl⟩
          obtain rfl := Except.ok.inj hfound
          obtain rfl := Option.some.inj (hendpoint.symm.trans hother)
          use answer, rfl

/-- An endpoint for a method and a path template. -/
def sample (name : String) (verb : Verb) (path : String) : Endpoint :=
  { name := Words.parse name
    http := { operation := { container := .group .global, name := name }, verb, path }
    operation := { name := name, returnType := ⟨0⟩ } }

theorem parsed_sample (name : String) (verb : Verb) (path : String) :
  (sample name verb path).name.Parsed :=
  Words.Parsed.parse name

/-- The router of two endpoints that share a parameter edge, the names of which are a keyword and a
name in another convention. -/
theorem eval_router_pets :
  routed? (Text.unlines (routerLines [sample "list" .get "/pets/\x7btype\x7d",
      sample "show" .get "/pets/\x7bpetType\x7d/\x7btype\x7d"])) "GET" "/pets/dog/7".toList
    = some (.ok ⟨"Show", [("pet_type", "dog".toList), ("r#type", ['7'])]⟩)
  := by
  have hnames : ∀ endpoint ∈ [sample "list" .get "/pets/\x7btype\x7d",
      sample "show" .get "/pets/\x7bpetType\x7d/\x7btype\x7d"], endpoint.name.Parsed := by
    simp [parsed_sample]
  apply ((eval_router hnames .get _).2.1 _).mpr
  use ⟨1, [("type", "dog".toList), ("petType", "dog".toList), ("type", ['7'])]⟩,
    sample "show" .get "/pets/\x7bpetType\x7d/\x7btype\x7d"
  decide +kernel

/-- Names that differ only in a mark of raw identifiers have one variable, so that a field may hold
the text of a name with another field. -/
theorem eval_router_raw_name :
  routed? (Text.unlines (routerLines [sample "first" .get "/x/\x7bfoo\x7d/\x7bbar\x7d",
      sample "second" .put "/x/\x7ba\x7d/\x7br#foo\x7d"])) "GET" "/x/1/2".toList
    = some (.ok ⟨"First", [("foo", ['2']), ("bar", ['2'])]⟩)
  ∧ ∃ found, (routes [sample "first" .get "/x/\x7bfoo\x7d/\x7bbar\x7d",
        sample "second" .put "/x/\x7ba\x7d/\x7br#foo\x7d"]).resolve .get "/x/1/2".toList = .ok found
      ∧ lastBound (fun name => Identifier.valueName name = "foo") found.bindings = some ['1']
  := by
  constructor
  · rw [routed?, readRouter?_routerLines (by simp [parsed_sample]), Option.bind_some]
    decide +kernel
  · use ⟨0, [("foo", ['1']), ("a", ['1']), ("bar", ['2']), ("r#foo", ['2'])]⟩
    decide +kernel

end Endpoint

end ServiceBindings
