import ServiceBindings.Proofs.Http.RequestText

/-!
# The path of a request

The path that a client requests is the template of the endpoint with a text in the place of every
segment. Literal segments stay as they are. A parameter of the template that is declared as a
literal is replaced by the literal, one that is declared as null by nothing, and one that is not
declared stays in its braces. For every other parameter the text of its field is filled in.

The format string in the generated code says just this: its braces are escapes or places of
arguments, there is one place for each argument, and the argument of a place is the field of the
parameter there. Without arguments the code has the path itself in place of a format string.
-/

namespace ServiceBindings

/-- A parameter is the first one of a path with a name. -/
structure HttpParameter.IsDeclared (parameters : List HttpParameter) (name : String)
    (parameter : HttpParameter) : Prop where
  location : parameter.location = .path
  name_eq : parameter.name = name
  first : ∃ before after, parameters = before ++ parameter :: after
    ∧ ∀ other ∈ before, other.location = .path → other.name ≠ name

namespace Segment

/-- What stands for a segment of a template in the path of a request, given the texts of fields. -/
inductive StandsFor (graph : TypeGraph) (parameters : List HttpParameter)
    (fieldText : String → List Char) : Segment → List Char → Prop where
  | literal (content : List Char) :
      StandsFor graph parameters fieldText (.literal content) content
  | constant {name : List Char} {parameter : HttpParameter} {value : LiteralValue} :
      HttpParameter.IsDeclared parameters (String.ofList name) parameter →
      graph.kind? parameter.type = some (.literal value) →
      StandsFor graph parameters fieldText (.parameter name) value.wireText.toList
  | null {name : List Char} {parameter : HttpParameter} :
      HttpParameter.IsDeclared parameters (String.ofList name) parameter →
      graph.kind? parameter.type = some (.intrinsic .null) →
      StandsFor graph parameters fieldText (.parameter name) []
  | unbound {name : List Char} :
      (∀ parameter ∈ parameters, parameter.location = .path →
        parameter.name ≠ String.ofList name) →
      StandsFor graph parameters fieldText (.parameter name) ('\x7b' :: name ++ ['\x7d'])
  | argument {name : List Char} {parameter : HttpParameter} :
      HttpParameter.IsDeclared parameters (String.ofList name) parameter →
      graph.isValue parameter.type = false →
      StandsFor graph parameters fieldText (.parameter name)
        (fieldText (Identifier.valueName (String.ofList name)))

variable {graph : TypeGraph} {parameters : List HttpParameter}

theorem isDeclared_of_find? {name : String} {parameter : HttpParameter}
    (h : (parameters.find? fun parameter =>
      parameter.name = name && parameter.location = .path) = some parameter) :
  HttpParameter.IsDeclared parameters name parameter
  := by
  obtain ⟨hfound, before, after, hsplit, hbefore⟩ := List.find?_eq_some_iff_append.mp h
  simp only [Bool.and_eq_true, decide_eq_true_eq] at hfound
  refine ⟨hfound.2, hfound.1, before, after, hsplit, ?_⟩
  intro other hother hpath hname
  have hnot := hbefore other hother
  simp [hpath, hname] at hnot

/-- The piece of a segment has the text that stands for the segment. -/
theorem standsFor_value (fieldText : String → List Char) (segment : Segment) :
  segment.StandsFor graph parameters fieldText
    ((PathPiece.ofSegment graph parameters segment).value fieldText)
  := by
  cases segment with
  | literal content => apply StandsFor.literal
  | parameter name =>
      rw [PathPiece.ofSegment, PathPiece.ofParameter]
      split
      case h_1 hnone =>
        apply StandsFor.unbound
        intro parameter hparameter hpath hname
        have hnot := List.find?_eq_none.mp hnone parameter hparameter
        simp [hpath, hname] at hnot
      case h_2 parameter hsome =>
        have hdeclared := isDeclared_of_find? hsome
        split
        case h_1 value hkind => exact .constant hdeclared hkind
        case h_2 hkind => exact .null hdeclared hkind
        case h_3 hliteral hnull =>
          have hvalue := TypeGraph.isValue_eq_false hliteral hnull
          rw [PathPiece.value, hdeclared.name_eq]
          exact .argument hdeclared hvalue

end Segment

namespace Endpoint

/-- The format string of the path of a request. -/
def pathFormat (graph : TypeGraph) (endpoint : Endpoint) : List Char :=
  (endpoint.pathPieces graph).flatMap PathPiece.format

/-- The fields that give the arguments of the format string. -/
def pathArguments (graph : TypeGraph) (endpoint : Endpoint) : List String :=
  (endpoint.pathPieces graph).filterMap PathPiece.field?

theorem forall₂_standsFor (graph : TypeGraph) (endpoint : Endpoint)
    (fieldText : String → List Char) :
  List.Forall₂ (Segment.StandsFor graph endpoint.http.parameters fieldText)
    (Template.parse endpoint.http.path)
    ((endpoint.pathPieces graph).map (PathPiece.value fieldText))
  := by
  rw [pathPieces, List.map_map, List.forall₂_map_right_iff, List.forall₂_same]
  intro segment _
  apply segment.standsFor_value

/-- The function that builds the request of an endpoint makes its path of the template. Its format
string is well formed, with as many places as there are arguments, and filled in with them it is the
text that stands for the template; without arguments the path is that text. -/
theorem request_path_exact (graph : TypeGraph) (client : String) (endpoint : Endpoint)
    (fieldText : String → List Char) :
  ∃ code parts texts,
    RequestCode.read? client (endpoint.requestLines graph client) = some code
    ∧ FormatPart.read? (endpoint.pathFormat graph) = some parts
    ∧ parts.count .argument = (endpoint.pathArguments graph).length
    ∧ List.Forall₂ (Segment.StandsFor graph endpoint.http.parameters fieldText)
        (Template.parse endpoint.http.path) texts
    ∧ FormatPart.expand? parts ((endpoint.pathArguments graph).map fieldText)
        = some texts.flatten
    ∧ code.path = if endpoint.pathArguments graph = [] then .plain texts.flatten
        else .format (endpoint.pathFormat graph) (endpoint.pathArguments graph)
  := by
  refine ⟨endpoint.requestCode graph, _, _, endpoint.read?_requestLines graph client,
    PathPiece.read?_flatMap_format _, PathPiece.count_parts _,
    endpoint.forall₂_standsFor graph fieldText, ?_, ?_⟩
  · rw [← List.flatMap_def]
    apply PathPiece.expand?_flatMap_parts
  · change PathExpression.ofPieces (endpoint.pathPieces graph) = _
    by_cases hnone : endpoint.pathArguments graph = []
    · rw [if_pos hnone, PathExpression.ofPieces_of_nil hnone,
        PathPiece.plain_eq_value hnone fieldText, List.flatMap_def]
    · rw [if_neg hnone, PathExpression.ofPieces_of_ne_nil hnone]
      rfl

end Endpoint

end ServiceBindings
