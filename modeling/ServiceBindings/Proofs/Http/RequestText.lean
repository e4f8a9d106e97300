import ServiceBindings.Proofs.Http.PathText
import ServiceBindings.Proofs.Naming.Words

/-!
# Reading client functions

The function that builds a request is read back from its lines: the expression of its path, the
method, and the statements that send the other parameters.  So is the function that reads a
response, which has an arm for each outcome that carries a value.
-/

namespace ServiceBindings

open Text

/-! ### Literals -/

/-- Whether a character can stand in the text of a number. -/
def isNumeric (c : Char) : Bool :=
  c.isDigit || c ∈ ['-', '+', '.', 'e']

namespace Decimal

theorem isNumeric_digitsOf (n : Nat) : ∀ c ∈ digitsOf n, isNumeric c = true := by
  intro c hc
  have hdigit : c.isDigit = true := by
    apply Nat.isDigit_of_mem_toDigits _ _ hc <;> decide
  rw [isNumeric, hdigit, Bool.true_or]

theorem isNumeric_positional (s : Scientific) : ∀ c ∈ positional s, isNumeric c = true := by
  have hdigits := isNumeric_digitsOf s.digits
  have hzeros (n : Nat) : ∀ c ∈ List.replicate n '0', isNumeric c = true := by
    intro c hc
    rw [List.eq_of_mem_replicate hc]
    decide
  unfold positional
  dsimp only
  split
  case isTrue =>
    simp only [List.forall_mem_append]
    exact ⟨⟨hdigits, hzeros _⟩, List.all_eq_true.mp (by decide)⟩
  case isFalse =>
    split
    case isTrue =>
      rw [List.forall_mem_append, List.forall_mem_cons]
      exact ⟨fun c hc => hdigits c (List.mem_of_mem_take hc), by decide,
        fun c hc => hdigits c (List.mem_of_mem_drop hc)⟩
    case isFalse =>
      simp only [List.forall_mem_append]
      exact ⟨⟨List.all_eq_true.mp (by decide), hzeros _⟩, hdigits⟩

theorem isNumeric_exponentMark (plus : Bool) (exponent : Int) :
  ∀ c ∈ exponentMark plus exponent, isNumeric c = true
  := by
  have hdigits := isNumeric_digitsOf
  unfold exponentMark
  split
  case isTrue => exact List.forall_mem_cons.mpr ⟨by decide, List.forall_mem_cons.mpr
    ⟨by decide, hdigits _⟩⟩
  case isFalse =>
    split
    case isTrue => exact List.forall_mem_cons.mpr ⟨by decide, List.forall_mem_cons.mpr
      ⟨by decide, hdigits _⟩⟩
    case isFalse => exact List.forall_mem_cons.mpr ⟨by decide, hdigits _⟩

theorem isNumeric_exponential (plus : Bool) (s : Scientific) :
  ∀ c ∈ exponential plus s, isNumeric c = true
  := by
  have hdigits := isNumeric_digitsOf s.digits
  have hmark := isNumeric_exponentMark plus
    (s.exponent + Int.ofNat (digitsOf s.digits).length - 1)
  unfold exponential
  dsimp only
  split
  case h_1 => apply hmark
  case h_2 d hd =>
    rw [hd] at hdigits
    exact List.forall_mem_cons.mpr ⟨hdigits d List.mem_cons_self, hmark⟩
  case h_3 d ds _ hd =>
    rw [hd] at hdigits
    obtain ⟨hfirst, hrest⟩ := List.forall_mem_cons.mp hdigits
    exact List.forall_mem_cons.mpr ⟨hfirst, List.forall_mem_cons.mpr
      ⟨by decide, List.forall_mem_append.mpr ⟨hrest, hmark⟩⟩⟩

end Decimal

namespace LiteralValue

/-- The text of a number has only the characters of numbers. -/
theorem isNumeric_numberText (x : Binary64) :
  ∀ c ∈ (numberText x).toList, isNumeric c = true
  := by
  have hsign : ∀ c ∈ Decimal.signOf x, isNumeric c = true := by
    unfold Decimal.signOf
    split <;> exact List.all_eq_true.mp (by decide)
  unfold numberText
  split
  case h_1 n _ =>
    rw [String.toList_ofList, List.forall_mem_append]
    exact ⟨hsign, Decimal.isNumeric_digitsOf n⟩
  case h_2 =>
    rw [String.toList_ofList, Decimal.Format.write, List.forall_mem_append]
    refine ⟨hsign, ?_⟩
    split
    case isTrue => apply Decimal.isNumeric_positional
    case isFalse => apply Decimal.isNumeric_exponential

/-- No literal of the generated code starts like the name of the parameters. -/
theorem head?_toCode (value : LiteralValue) : value.toCode.toList.head? ≠ some 'p' := by
  cases value with
  | bool value => cases value <;> decide
  | string value =>
      rw [toCode, quoted, String.toList_ofList]
      simp [quotedChars]
  | number value =>
      intro hhead
      have hnumeric := isNumeric_numberText value 'p' (List.mem_of_head? hhead)
      revert hnumeric
      decide

/-- A literal of the generated code stands on one line. -/
theorem feed_not_mem_toCode (value : LiteralValue) : '\n' ∉ value.toCode.toList := by
  cases value with
  | bool value => cases value <;> decide
  | string value => apply feed_not_mem_quoted
  | number value =>
      intro hmem
      have hnumeric := isNumeric_numberText value '\n' hmem
      revert hnumeric
      decide

end LiteralValue

/-! ### Statements -/

/-- What a statement of a request sends; the body has no name. -/
structure Sending where
  location : ParameterLocation
  name : Option String
  value : SentValue
  deriving DecidableEq, Repr

/-- What a statement sends. -/
def SendStatement.sending (statement : SendStatement) : Sending where
  location := statement.location
  name := if statement.location = .body then none else some statement.name
  value := statement.value

namespace Sending

/-- A call that adds a named value to the request: the name, and the expression of the value. -/
def readNamed? (method : String) (location : ParameterLocation) (text : String) :
    Option (ParameterLocation × Option String × String) := do
  let (name, rest) ← readQuoted? (← after? ("request." ++ method ++ "(") text)
  let expression ← before? ")?;" (← after? ", " rest)
  return (location, some name, expression)

/-- A call that adds the body to the request. -/
def readBody? (text : String) : Option (ParameterLocation × Option String × String) := do
  let expression ← before? ")?;" (← after? "request.json_body(" text)
  return (.body, none, expression)

/-- A call that adds something to the request. -/
def readCall? (text : String) : Option (ParameterLocation × Option String × String) :=
  ((readNamed? "query" .query text).or (readNamed? "header" .header text)).or (readBody? text)

/-- What an expression gives: a field, or else a literal. -/
def readValue? (expression : String) : Option SentValue :=
  match after? "&parameters." expression with
  | some ident => some (.field ident false)
  | none => (after? "&" expression).map .literal

/-- The field that a statement depends on. -/
def readGuard? (line : String) : Option String :=
  (after? "if let Some(value) = &parameters." line).bind (before? " \x7b")

/-- What statements send, up to the result of the function. -/
def readAll? : List String → Option (List Sending)
  | [] => none
  | [line] => if line = "Ok(request)" then some [] else none
  | first :: second :: rest =>
    match readCall? first with
    | some (location, name, expression) => do
      let value ← readValue? expression
      return ⟨location, name, value⟩ :: (← readAll? (second :: rest))
    | none =>
      match rest with
      | [] => none
      | third :: rest => do
        let ident ← readGuard? first
        let (location, name, expression) ← readCall? (← after? "    " second)
        if expression = "value" ∧ third = "\x7d" then
          return ⟨location, name, .field ident true⟩ :: (← readAll? rest)
        else none

theorem readNamed?_append (method : String) (location : ParameterLocation)
    (name expression : String) :
  readNamed? method location
      ("request." ++ method ++ "(" ++ quoted name ++ ", " ++ expression ++ ")?;")
    = some (location, some name, expression)
  := by
  have htext : "request." ++ method ++ "(" ++ quoted name ++ ", " ++ expression ++ ")?;"
      = ("request." ++ method ++ "(") ++ (quoted name ++ (", " ++ (expression ++ ")?;"))) := by
    simp only [String.append_assoc]
  simp [readNamed?, htext]

theorem readNamed?_of_clash {method text : String} (h : clash ("request." ++ method ++ "(") text)
    (location : ParameterLocation) (rest : String) :
  readNamed? method location (text ++ rest) = none
  := by
  rw [readNamed?, after?_append_of_clash h]
  rfl

/-- A call is read back. -/
theorem readCall?_call {statement : SendStatement} (h : statement.location ≠ .path)
    (expression : String) :
  readCall? (statement.call expression)
    = some (statement.location, statement.sending.name, expression)
  := by
  obtain ⟨location, name, value⟩ := statement
  cases location with
  | path => apply absurd rfl h
  | query =>
      have hquery := readNamed?_append "query" .query name expression
      rw [readCall?]
      change Option.or (Option.or (readNamed? "query" .query ("request." ++ "query" ++ "("
        ++ quoted name ++ ", " ++ expression ++ ")?;")) _) _ = _
      rw [hquery]
      rfl
  | header =>
      have hheader := readNamed?_append "header" .header name expression
      have hquery : readNamed? "query" .query ("request." ++ "header" ++ "(" ++ quoted name ++ ", "
          ++ expression ++ ")?;") = none := by
        simp only [String.append_assoc]
        rw [← String.append_assoc]
        apply readNamed?_of_clash (by decide)
      rw [readCall?]
      change Option.or (Option.or (readNamed? "query" .query ("request." ++ "header" ++ "("
        ++ quoted name ++ ", " ++ expression ++ ")?;")) (readNamed? "header" .header _)) _ = _
      rw [hquery, Option.none_or]
      change Option.or (readNamed? "header" .header ("request." ++ "header" ++ "("
        ++ quoted name ++ ", " ++ expression ++ ")?;")) _ = _
      rw [hheader]
      rfl
  | body =>
      change readCall? ("request.json_body(" ++ expression ++ ")?;") = _
      rw [readCall?, String.append_assoc, readNamed?_of_clash (by decide),
        readNamed?_of_clash (by decide), Option.none_or, Option.none_or, readBody?, after?_append]
      change Option.bind (before? _ _) _ = _
      rw [before?_append]
      rfl

theorem readValue?_field (ident : String) :
  readValue? ("&parameters." ++ ident) = some (.field ident false)
  := by
  rw [readValue?, after?_append]

theorem readValue?_literal {code : String} (h : code.toList.head? ≠ some 'p') :
  readValue? ("&" ++ code) = some (.literal code)
  := by
  have hother : after? "&parameters." ("&" ++ code) = none := by
    rw [after?, String.toList_append]
    change Option.map _ (List.isPrefixOf? ('&' :: 'p' :: "arameters.".toList)
      ('&' :: code.toList)) = _
    cases hcode : code.toList with
    | nil => rfl
    | cons c cs =>
        rw [hcode, List.head?_cons, ne_eq, Option.some.injEq] at h
        simp [List.isPrefixOf?, Ne.symm h]
  rw [readValue?, hother]
  dsimp only
  rw [after?_append, Option.map_some]

/-- Whether the lines of a statement tell what it sends: it does not send a part of the path, a
literal does not look like a field, and what is sent stands on one line. -/
structure IsReadable (statement : SendStatement) : Prop where
  location : statement.location ≠ .path
  literal : ∀ code, statement.value = .literal code →
    code.toList.head? ≠ some 'p' ∧ '\n' ∉ code.toList
  field : ∀ ident optional, statement.value = .field ident optional → '\n' ∉ ident.toList

/-- A statement in front of others is read back. -/
theorem readAll?_append {statement : SendStatement} (h : IsReadable statement) (line : String)
    (rest : List String) :
  readAll? (statement.lines ++ line :: rest)
    = (readAll? (line :: rest)).map (statement.sending :: ·)
  := by
  have hcall := readCall?_call h.location
  obtain ⟨location, name, value⟩ := statement
  match value with
  | .literal code =>
      change readAll? (SendStatement.call _ ("&" ++ code) :: line :: rest) = _
      rw [readAll?.eq_def]
      dsimp only
      rw [hcall]
      dsimp only
      rw [readValue?_literal (h.literal code rfl).1]
      cases readAll? (line :: rest) <;> rfl
  | .field ident false =>
      change readAll? (SendStatement.call _ ("&parameters." ++ ident) :: line :: rest) = _
      rw [readAll?.eq_def]
      dsimp only
      rw [hcall]
      dsimp only
      rw [readValue?_field]
      cases readAll? (line :: rest) <;> rfl
  | .field ident true =>
      have hne : SendStatement.call ⟨location, name, .field ident true⟩ "value" ≠ "" := by
        cases location <;> simp [SendStatement.call]
      have hguard : readCall? ("if let Some(value) = &parameters." ++ ident ++ " \x7b") = none := by
        rw [readCall?, String.append_assoc, readNamed?_of_clash (by decide),
          readNamed?_of_clash (by decide), readBody?, after?_append_of_clash (by decide)]
        rfl
      have hident : readGuard? ("if let Some(value) = &parameters." ++ ident ++ " \x7b")
          = some ident := by
        rw [readGuard?, String.append_assoc, after?_append, Option.bind_some, before?_append]
      change readAll? (("if let Some(value) = &parameters." ++ ident ++ " \x7b") ::
        (Code.indent [SendStatement.call ⟨location, name, .field ident true⟩ "value"]
          ++ ["\x7d"]) ++ line :: rest) = _
      rw [Code.indent_eq_map (by simpa using hne)]
      simp only [List.map_cons, List.map_nil, List.cons_append, List.nil_append]
      rw [readAll?.eq_def]
      dsimp only
      rw [hguard]
      dsimp only
      rw [hident, after?_append]
      simp only [Option.bind_eq_bind, Option.bind_some]
      rw [hcall]
      simp only [Option.bind_some, and_self, if_true]
      cases readAll? (line :: rest) <;> rfl

/-- Statements are read back. -/
theorem readAll?_lines {statements : List SendStatement}
    (h : ∀ statement ∈ statements, IsReadable statement) :
  readAll? (statements.flatMap SendStatement.lines ++ ["Ok(request)"])
    = some (statements.map SendStatement.sending)
  := by
  induction statements with
  | nil => rfl
  | cons statement statements ih =>
      obtain ⟨hstatement, hrest⟩ := List.forall_mem_cons.mp h
      obtain ⟨line, rest, hlines⟩ := List.exists_cons_of_ne_nil
        (List.append_ne_nil_of_right_ne_nil (statements.flatMap SendStatement.lines)
          (List.cons_ne_nil "Ok(request)" []))
      rw [List.flatMap_cons, List.append_assoc, hlines, readAll?_append hstatement, ← hlines,
        ih hrest]
      rfl

theorem isLine_call (statement : SendStatement) {expression : String}
    (h : '\n' ∉ expression.toList) :
  IsLine (statement.call expression)
  := by
  have hnamed (method : String) (hmethod : '\n' ∉ method.toList) : IsLine ("request." ++ method
      ++ "(" ++ quoted statement.name ++ ", " ++ expression ++ ")?;") := by
    apply isLine_append _ (by decide) (by decide)
    simp [hmethod, feed_not_mem_quoted, h]
  have hbody : IsLine ("request.json_body(" ++ expression ++ ")?;") := by
    apply isLine_append _ (by decide) (by decide)
    simp [h]
  unfold SendStatement.call
  split
  case h_1 => apply hnamed "header" (by decide)
  case h_2 => apply hbody
  case h_3 => apply hnamed "query" (by decide)

theorem IsReadable.isLine_lines {statement : SendStatement} (h : IsReadable statement) :
  ∀ line ∈ statement.lines, IsLine line
  := by
  unfold SendStatement.lines
  split
  case h_1 code hvalue =>
    rw [List.forall_mem_singleton]
    apply isLine_call
    simp [(h.literal code hvalue).2]
  case h_2 ident hvalue =>
    rw [List.forall_mem_singleton]
    apply isLine_call
    simp [h.field ident false hvalue]
  case h_3 ident hvalue =>
    apply Code.isLine_block
    · simp [h.field ident true hvalue]
    · rw [List.forall_mem_singleton]
      apply isLine_call _ (by decide)

end Sending

/-! ### The function -/

/-- What a function that builds a request does. -/
structure RequestCode where
  path : PathExpression
  verb : String
  sendings : List Sending
  deriving DecidableEq, Repr

namespace RequestCode

/-- The method of the request that a line makes. -/
def readVerb? (client line : String) : Option String :=
  (((after? "let request = " line).or (after? "let mut request = " line)).bind
    (after? (client ++ "::Request::new("))).bind fun arguments =>
      (readQuoted? arguments).bind fun (verb, rest) => if rest = ", path);" then some verb else none

/-- The path of the request. -/
def readPath? (client line : String) : Option PathExpression :=
  ((after? "let path = " line).bind (before? ";")).bind (PathExpression.read? client)

/-- What the lines in the function do. -/
def readBody? (client : String) : List String → Option RequestCode
  | path :: made :: statements => do
    let expression ← readPath? client path
    let verb ← readVerb? client made
    return ⟨expression, verb, ← Sending.readAll? statements⟩
  | _ => none

/-- The head of the function. -/
def signature (client : String) : String :=
  "pub fn request(parameters: &Parameters) -> Result<" ++ client ++ "::Request, " ++ client
    ++ "::EncodeError>"

/-- The lines of the function without the mark of a function that does not use its parameters. -/
def dropMark : List String → List String
  | [] => []
  | line :: rest => if line = "#[allow(unused_variables)]" then rest else line :: rest

/-- What a function that builds a request does, from its lines. -/
def read? (client : String) : List String → Option RequestCode
  | [] => none
  | doc :: rest =>
    if doc = "/// Request for this endpoint, built from its parameters." then
      (Code.readBlock? (dropMark rest)).bind fun (head, body) =>
        if head = signature client then readBody? client body else none
    else none

theorem dropMark_append (client : String) (unmarked : Bool) (body : List String) :
  dropMark ((if unmarked then [] else ["#[allow(unused_variables)]"])
      ++ Code.block (signature client) body)
    = Code.block (signature client) body
  := by
  cases unmarked with
  | false => rfl
  | true =>
      have hhead : signature client ++ " \x7b" ≠ "#[allow(unused_variables)]" := by
        intro heq
        have hmark : after? "#" (signature client ++ " \x7b") = none := by
          obtain ⟨rest, hrest⟩ : ∃ rest, signature client
              = "pub fn request(parameters: &Parameters) -> Result<" ++ rest := by
            unfold signature
            simp only [String.append_assoc]
            exact ⟨_, rfl⟩
          rw [hrest, String.append_assoc, after?_append_of_clash (by decide)]
        rw [heq] at hmark
        exact absurd hmark (by decide)
      rw [if_pos rfl, List.nil_append, Code.block, List.cons_append, dropMark, if_neg hhead]

theorem isLine_mark (unmarked : Bool) :
  ∀ line ∈ if unmarked then [] else ["#[allow(unused_variables)]"], IsLine line
  := by
  cases unmarked <;> decide

/-- The lines of the function are its documentation, a mark if it does not use its parameters, and a
block. -/
theorem read?_cons (client : String) (unmarked : Bool) (body : List String) :
  read? client ("/// Request for this endpoint, built from its parameters."
      :: (if unmarked then [] else ["#[allow(unused_variables)]"])
      ++ Code.block (signature client) body)
    = readBody? client body
  := by
  rw [List.cons_append, read?, if_pos rfl, dropMark_append, Code.readBlock?_block, Option.bind_some]
  dsimp only
  rw [if_pos rfl]

theorem readVerb?_append (client verb word : String) (h : word = "let" ∨ word = "let mut") :
  readVerb? client (word ++ " request = " ++ client ++ "::Request::new(" ++ quoted verb
      ++ ", path);")
    = some verb
  := by
  have hcall : after? (client ++ "::Request::new(") (client ++ ("::Request::new(" ++ (quoted verb
      ++ ", path);"))) = some (quoted verb ++ ", path);") := by
    rw [← String.append_assoc, after?_append]
  rcases h with rfl | rfl
  · have hline : "let" ++ " request = " ++ client ++ "::Request::new(" ++ quoted verb ++ ", path);"
        = "let request = " ++ (client ++ ("::Request::new(" ++ (quoted verb ++ ", path);"))) := by
      simp only [← String.append_assoc]
      rfl
    rw [readVerb?, hline, after?_append, Option.some_or, Option.bind_some, hcall]
    simp
  · have hline : "let mut" ++ " request = " ++ client ++ "::Request::new(" ++ quoted verb
          ++ ", path);"
        = "let mut request = "
          ++ (client ++ ("::Request::new(" ++ (quoted verb ++ ", path);"))) := by
      simp only [← String.append_assoc]
      rfl
    rw [readVerb?, hline, after?_append_of_clash (by decide), Option.none_or, after?_append,
      Option.bind_some, hcall]
    simp

end RequestCode

/-! ### Endpoints -/

/-- A type that is neither a literal nor null carries information. -/
theorem TypeGraph.isValue_eq_false {graph : TypeGraph} {id : TypeId}
    (hliteral : ∀ value, graph.kind? id = some (.literal value) → False)
    (hnull : graph.kind? id = some (.intrinsic .null) → False) :
  graph.isValue id = false
  := by
  unfold isValue
  split
  case h_1 kind hkind =>
    unfold TypeKind.isValue
    split
    case h_1 value => apply (hliteral value hkind).elim
    case h_2 => apply (hnull hkind).elim
    case h_3 => rfl
  case h_2 => rfl

namespace Endpoint

/-- What the function that builds a request does. -/
def requestCode (graph : TypeGraph) (endpoint : Endpoint) : RequestCode where
  path := PathExpression.ofPieces (endpoint.pathPieces graph)
  verb := endpoint.http.verb.text
  sendings := (endpoint.sendStatements graph).map SendStatement.sending

theorem isReadable_sendStatements (graph : TypeGraph) (endpoint : Endpoint) :
  ∀ statement ∈ endpoint.sendStatements graph, Sending.IsReadable statement
  := by
  intro statement hstatement
  obtain ⟨parameter, -, hparameter⟩ := List.mem_filterMap.mp hstatement
  unfold SendStatement.ofParameter at hparameter
  split at hparameter
  case isTrue => cases hparameter
  case isFalse hpath =>
    split at hparameter
    case h_1 value _ =>
      cases hparameter
      refine ⟨hpath, ?_, nofun⟩
      rintro _ ⟨⟩
      exact ⟨value.head?_toCode, value.feed_not_mem_toCode⟩
    case h_2 => cases hparameter
    case h_3 =>
      cases hparameter
      refine ⟨hpath, nofun, ?_⟩
      rintro _ _ ⟨⟩
      apply (Identifier.isToken_valueName parameter.name).feed

/-- A field of the path is that of a parameter of the path. -/
theorem exists_parameter_of_field? {graph : TypeGraph} {endpoint : Endpoint} {field : String}
    (h : field ∈ (endpoint.pathPieces graph).filterMap PathPiece.field?) :
  ∃ parameter ∈ endpoint.parameters graph, parameter.location = .path
    ∧ field = Identifier.valueName parameter.name
  := by
  obtain ⟨piece, hpiece, hfield⟩ := List.mem_filterMap.mp h
  obtain ⟨segment, -, rfl⟩ := List.mem_map.mp hpiece
  cases segment with
  | literal content => cases hfield
  | parameter name =>
      rw [PathPiece.ofSegment, PathPiece.ofParameter] at hfield
      split at hfield
      case h_1 => cases hfield
      case h_2 parameter hfound =>
        split at hfield
        case h_1 => cases hfield
        case h_2 => cases hfield
        case h_3 hliteral hnull =>
          cases hfield
          have hpath : parameter.name = String.ofList name ∧ parameter.location = .path := by
            simpa using List.find?_some hfound
          refine ⟨parameter, ?_, hpath.2, rfl⟩
          apply List.mem_filter.mpr ⟨List.mem_of_find?_eq_some hfound, _⟩
          rw [TypeGraph.isValue_eq_false hliteral hnull, Bool.not_false]

/-- The function that builds a request is read back from its lines. -/
theorem read?_requestLines (graph : TypeGraph) (client : String) (endpoint : Endpoint) :
  RequestCode.read? client (endpoint.requestLines graph client) = some (endpoint.requestCode graph)
  := by
  have hblanks : ∀ field ∈ (endpoint.pathPieces graph).filterMap PathPiece.field?,
      ' ' ∉ field.toList := by
    intro field hfield
    obtain ⟨parameter, -, -, rfl⟩ := exists_parameter_of_field? hfield
    apply Identifier.not_mem_valueName Words.isForeign_blank (by decide)
  have hpath : RequestCode.readPath? client
      ("let path = " ++ pathExpression client (endpoint.pathPieces graph) ++ ";")
      = some (PathExpression.ofPieces (endpoint.pathPieces graph)) := by
    rw [RequestCode.readPath?, String.append_assoc, after?_append, Option.bind_some, before?_append,
      Option.bind_some, PathExpression.read?_pathExpression client hblanks]
  have hsendings := Sending.readAll?_lines (isReadable_sendStatements graph endpoint)
  refine (RequestCode.read?_cons client _ _).trans ?_
  rw [List.append_assoc, List.cons_append, List.cons_append, List.nil_append,
    RequestCode.readBody?, hpath]
  simp only [Option.bind_eq_bind, Option.bind_some]
  rw [RequestCode.readVerb?_append client _ _ (by split <;> simp)]
  simp only [Option.bind_some]
  rw [hsendings]
  rfl

theorem feed_not_mem_pathExpression {client : String} (hclient : '\n' ∉ client.toList)
    {pieces : List PathPiece}
    (h : ∀ field ∈ pieces.filterMap PathPiece.field?, '\n' ∉ field.toList) :
  '\n' ∉ (pathExpression client pieces).toList
  := by
  have harguments : '\n' ∉ (Code.commaSeparated ((pieces.filterMap PathPiece.field?).map
      fun field => client ++ "::path_segment(&parameters." ++ field ++ ")?")).toList := by
    apply Code.feed_not_mem_commaSeparated
    intro text htext
    obtain ⟨field, hfield, rfl⟩ := List.mem_map.mp htext
    simp [hclient, h field hfield]
  unfold pathExpression
  dsimp only
  split
  case isTrue => simp [feed_not_mem_quotedChars]
  case isFalse => simp [feed_not_mem_quotedChars, harguments]

/-- The lines of the function that builds a request are one line each. -/
theorem isLine_requestLines (graph : TypeGraph) {client : String} (hclient : '\n' ∉ client.toList)
    (endpoint : Endpoint) :
  ∀ line ∈ endpoint.requestLines graph client, IsLine line
  := by
  have hpath : '\n' ∉ (pathExpression client (endpoint.pathPieces graph)).toList := by
    apply feed_not_mem_pathExpression hclient
    intro field hfield
    obtain ⟨parameter, -, -, rfl⟩ := exists_parameter_of_field? hfield
    apply (Identifier.isToken_valueName parameter.name).feed
  have hstatements : ∀ line ∈ (endpoint.sendStatements graph).flatMap SendStatement.lines,
      IsLine line := by
    intro line hline
    obtain ⟨statement, hstatement, hline⟩ := List.mem_flatMap.mp hline
    apply (isReadable_sendStatements graph endpoint statement hstatement).isLine_lines line hline
  have hhead : '\n' ∉ (RequestCode.signature client).toList := by
    unfold RequestCode.signature
    simp [hclient]
  unfold requestLines
  dsimp only
  rw [List.cons_append, List.forall_mem_cons, List.forall_mem_append]
  refine ⟨by decide, RequestCode.isLine_mark _, Code.isLine_block hhead ?_⟩
  simp only [List.cons_append, List.nil_append, List.forall_mem_cons, List.forall_mem_append]
  refine ⟨?_, ?_, hstatements, by decide⟩
  · apply isLine_append _ (by decide) (by decide)
    simp [hpath]
  · apply isLine_append _ (by decide) (by decide)
    split <;> simp [hclient, feed_not_mem_quoted]

end Endpoint

/-! ### Responses -/

namespace BodyReading

/-- How the value of an outcome is read, from the expression of its arm. -/
def readValue? (client constructor expression : String) : Option BodyReading :=
  match before? "(()))," expression with
  | some start => if start = "Ok(" ++ constructor then some .unit else none
  | none =>
    if expression = client ++ "::json(body).map(" ++ constructor ++ ")," then some .json else none

/-- The outcome of an arm and how its value is read. -/
def readArm? (client line : String) : Option (Outcome × BodyReading) :=
  ((after? "Some(super::Outcome::Success) => " line).bind fun expression =>
      (readValue? client "Ok" expression).map (.success, ·)).or
    ((after? "Some(super::Outcome::Error) => " line).bind fun expression =>
      (readValue? client "Err" expression).map (.error, ·))

/-- The head of the function that reads a response. -/
def signature (client : String) : String :=
  "pub fn decode(status: u16, body: &[u8]) -> Result<Result<Response, Error>, " ++ client
    ++ "::DecodeError>"

/-- The arms of a function that reads a response, from its block.  The last line in it is for all
other statuses. -/
def read? (client : String) (lines : List String) : Option (List (Outcome × BodyReading)) :=
  (Code.readBlock? lines).bind fun (head, body) =>
    if head = signature client then
      (Code.readBlock? body).bind fun (head, arms) =>
        if head = "match classify(status)" ∧ arms.getLast?
            = some ("_ => Err(" ++ client ++ "::DecodeError::UnexpectedStatus(status)),") then
          arms.dropLast.mapM (readArm? client)
        else none
    else none

theorem readValue?_unit (client constructor : String) :
  readValue? client constructor ("Ok(" ++ constructor ++ "(())),") = some .unit
  := by
  rw [readValue?, before?_append]
  dsimp only
  rw [if_pos rfl]

theorem readValue?_json (client : String) {constructor : String}
    (h : constructor = "Ok" ∨ constructor = "Err") :
  readValue? client constructor (client ++ "::json(body).map(" ++ constructor ++ "),") = some .json
  := by
  have hother : before? "(()))," (client ++ "::json(body).map(" ++ constructor ++ "),") = none := by
    have hends : "Ok" ++ ")," = "Ok)," ∧ "Err" ++ ")," = "Err)," := ⟨rfl, rfl⟩
    rcases h with rfl | rfl
    · rw [String.append_assoc, hends.1, before?_append_of_clash (by decide)]
    · rw [String.append_assoc, hends.2, before?_append_of_clash (by decide)]
  rw [readValue?, hother]
  dsimp only
  rw [if_pos rfl]

/-- An arm for a success is read back. -/
theorem readArm?_success (client : String) (reading : BodyReading) :
  readArm? client (decodeArm client .success "Ok" reading) = some (.success, reading)
  := by
  obtain ⟨expression, harm, hread⟩ : ∃ expression,
      decodeArm client .success "Ok" reading = "Some(super::Outcome::Success) => " ++ expression
      ∧ readValue? client "Ok" expression = some reading := by
    cases reading with
    | unit => exact ⟨_, rfl, readValue?_unit client "Ok"⟩
    | json => exact ⟨_, rfl, readValue?_json client (Or.inl rfl)⟩
  rw [harm, readArm?, after?_append, Option.bind_some, hread]
  rfl

/-- An arm for an error is read back. -/
theorem readArm?_error (client : String) (reading : BodyReading) :
  readArm? client (decodeArm client .error "Err" reading) = some (.error, reading)
  := by
  obtain ⟨expression, harm, hread⟩ : ∃ expression,
      decodeArm client .error "Err" reading = "Some(super::Outcome::Error) => " ++ expression
      ∧ readValue? client "Err" expression = some reading := by
    cases reading with
    | unit => exact ⟨_, rfl, readValue?_unit client "Err"⟩
    | json => exact ⟨_, rfl, readValue?_json client (Or.inr rfl)⟩
  rw [harm, readArm?, after?_append_of_clash (by decide), Option.bind_none, Option.none_or,
    after?_append, Option.bind_some, hread]
  rfl

/-- The outcomes that carry a value, and how it is read. -/
def arms (response error : String) : List (Outcome × BodyReading) :=
  (ofType response).toList.map (Outcome.success, ·)
    ++ (ofType error).toList.map (Outcome.error, ·)

/-- The block of the function that reads a response. -/
def block (client response error : String) : List String :=
  Code.block (signature client) (Code.block "match classify(status)"
    ((ofType response).toList.map (decodeArm client .success "Ok")
      ++ (ofType error).toList.map (decodeArm client .error "Err")
      ++ ["_ => Err(" ++ client ++ "::DecodeError::UnexpectedStatus(status)),"]))

theorem block_suffix (client response error : String) :
  block client response error <:+ decodeLines client response error :=
  List.suffix_append _ _

/-- The arms of the function that reads a response are read back. -/
theorem read?_block (client response error : String) :
  read? client (block client response error) = some (arms response error)
  := by
  have hsuccess : ((ofType response).toList.map (decodeArm client .success "Ok")).mapM
      (readArm? client) = some ((ofType response).toList.map (.success, ·)) := by
    cases ofType response with
    | none => rfl
    | some reading => simp [readArm?_success]
  have herror : ((ofType error).toList.map (decodeArm client .error "Err")).mapM
      (readArm? client) = some ((ofType error).toList.map (.error, ·)) := by
    cases ofType error with
    | none => rfl
    | some reading => simp [readArm?_error]
  rw [read?, block, Code.readBlock?_block, Option.bind_some]
  dsimp only
  rw [if_pos rfl, Code.readBlock?_block, Option.bind_some]
  dsimp only
  rw [if_pos ⟨rfl, List.getLast?_concat⟩, List.dropLast_concat, List.mapM_append, hsuccess, herror]
  rfl

theorem lookup_success (response error : String) :
  (arms response error).lookup .success = ofType response
  := by
  unfold arms
  cases ofType response with
  | none => cases ofType error <;> rfl
  | some reading => rfl

theorem isLine_decodeArm {client : String} (hclient : '\n' ∉ client.toList) (outcome : Outcome)
    {constructor : String} (h : '\n' ∉ constructor.toList) (reading : BodyReading) :
  IsLine (decodeArm client outcome constructor reading)
  := by
  have hvariant : '\n' ∉ outcome.variant.toList := by
    cases outcome <;> decide
  cases reading with
  | unit =>
      apply isLine_append _ (by decide) (by decide)
      simp [hvariant, h]
  | json =>
      apply isLine_append _ (by decide) (by decide)
      simp [hvariant, hclient, h]

/-- The lines of the function that reads a response are one line each. -/
theorem isLine_decodeLines {client : String} (hclient : '\n' ∉ client.toList)
    (response error : String) :
  ∀ line ∈ decodeLines client response error, IsLine line
  := by
  have hhead : '\n' ∉ (signature client).toList := by
    unfold signature
    simp [hclient]
  unfold decodeLines
  dsimp only
  rw [List.cons_append, List.forall_mem_cons, List.forall_mem_append]
  refine ⟨by decide, RequestCode.isLine_mark _,
    Code.isLine_block hhead (Code.isLine_block (by decide) ?_)⟩
  simp only [List.forall_mem_append, List.forall_mem_map, List.forall_mem_singleton]
  refine ⟨⟨?_, ?_⟩, ?_⟩
  · intro reading _
    apply isLine_decodeArm hclient .success (by decide)
  · intro reading _
    apply isLine_decodeArm hclient .error (by decide)
  · apply isLine_append _ (by decide) (by decide)
    simp [hclient]

end BodyReading

/-- The lines of the client of an endpoint are one line each. -/
theorem Endpoint.isLine_clientLines (graph : TypeGraph) {config : Config}
    (hclient : '\n' ∉ (config.host "client").toList) (response error : String)
    (endpoint : Endpoint) :
  ∀ line ∈ endpoint.clientLines graph config response error, IsLine line
  := by
  rw [clientLines, List.forall_mem_append, List.forall_mem_cons]
  exact ⟨endpoint.isLine_requestLines graph hclient, by decide,
    BodyReading.isLine_decodeLines hclient response error⟩

end ServiceBindings
