import ServiceBindings.Json.Writer
import ServiceBindings.Schema.Link

/-!
# Writing schemas

The JSON document of a schema: members in a fixed order, null for what is absent. Only the
documentation and the span of a type are left out when they are absent.
-/

namespace ServiceBindings

open Json

/-- A value that may be absent. -/
def encodeOption {α : Type} (encode : α → Json) : Option α → Json
  | none => .null
  | some value => encode value

/-- A list of values. -/
def encodeList {α : Type} (encode : α → Json) (values : List α) : Json :=
  .array (values.map encode)

/-! ### Types -/

/-- A type is referred to by its position. -/
def TypeId.encode (id : TypeId) : Json := .ofNat id.index

/-- A namespace is referred to by its position. -/
def NamespaceId.encode (id : NamespaceId) : Json := .ofNat id.index

/-- A span is written with its start and its end. -/
def Span.encode (span : Span) : Json :=
  .ofMembers [("start", .ofNat span.start), ("end", .ofNat span.stop)]

/-- A literal value is written as it is; a number always has a fraction or an exponent. -/
def LiteralValue.encode : LiteralValue → Json
  | .bool value => .bool value
  | .number value => .number (.fraction value)
  | .string value => .ofString value

/-- An encoding is written with its name and its type. -/
def Encoding.encode (encoding : Encoding) : Json :=
  .ofMembers [("name", .ofString encoding.name), ("type", encoding.type.encode)]

/-- A field is written with all its members. -/
def Field.encode (field : Field) : Json :=
  .ofMembers [
    ("name", .ofString field.name),
    ("type", field.type.encode),
    ("optional", .bool field.optional),
    ("wire_name", encodeOption .ofString field.wireName),
    ("encoding", encodeOption Encoding.encode field.encoding),
    ("doc", encodeOption .ofString field.doc),
    ("span", encodeOption Span.encode field.span)]

/-- An operation is written with all its members. -/
def Operation.encode (operation : Operation) : Json :=
  .ofMembers [
    ("name", .ofString operation.name),
    ("parameters", encodeList Field.encode operation.parameters),
    ("return_type", operation.returnType.encode),
    ("doc", encodeOption .ofString operation.doc),
    ("span", encodeOption Span.encode operation.span)]

/-- A member of an enumeration is written with all its members. -/
def EnumMember.encode (member : EnumMember) : Json :=
  .ofMembers [
    ("name", .ofString member.name),
    ("value", encodeOption LiteralValue.encode member.value),
    ("doc", encodeOption .ofString member.doc)]

/-- A variant of a union is written with its name and its type. -/
def UnionVariant.encode (variant : UnionVariant) : Json :=
  .ofMembers [
    ("name", encodeOption .ofString variant.name),
    ("type", variant.type.encode)]

/-- The name of an intrinsic type. -/
def Intrinsic.text : Intrinsic → String
  | never => "never"
  | void => "void"
  | null => "null"
  | unknown => "unknown"
  | errorType => "error_type"

/-- The members of a type that say what it is, the tag first. -/
def TypeKind.members (kind : TypeKind) : List (String × Json) :=
  ("kind", .ofString kind.shortName) ::
    match kind with
    | scalar s => [
        ("name", .ofString s.name),
        ("namespace", s.owner.encode),
        ("base", encodeOption TypeId.encode s.base)]
    | record r => [
        ("name", encodeOption .ofString r.name),
        ("namespace", encodeOption NamespaceId.encode r.owner),
        ("template_args", encodeList .ofString r.templateArgs),
        ("friendly_name", encodeOption .ofString r.friendlyName),
        ("fields", encodeList Field.encode r.fields),
        ("error", .bool r.error)]
    | enum e => [
        ("name", .ofString e.name),
        ("namespace", e.owner.encode),
        ("members", encodeList EnumMember.encode e.members)]
    | union u => [
        ("name", encodeOption .ofString u.name),
        ("namespace", encodeOption NamespaceId.encode u.owner),
        ("variants", encodeList UnionVariant.encode u.variants),
        ("discriminator", encodeOption .ofString u.discriminator)]
    | interface i => [
        ("name", .ofString i.name),
        ("namespace", i.owner.encode),
        ("operations", encodeList Operation.encode i.operations)]
    | array element => [("element", element.encode)]
    | map value => [("value", value.encode)]
    | literal value => [("value", value.encode)]
    | intrinsic name => [("name", .ofString name.text)]

/-- A type is written as the members of its kind, then its documentation and its span if it has
them. -/
def TypeNode.encode (node : TypeNode) : Json :=
  .ofMembers (node.kind.members
    ++ node.doc.toList.map (fun doc => ("doc", .ofString doc))
    ++ node.span.toList.map (fun span => ("span", span.encode)))

/-- A namespace is written without its lists of children and declarations. -/
def Namespace.encode (ns : Namespace) : Json :=
  .ofMembers [
    ("name", .ofString ns.name),
    ("parent", encodeOption NamespaceId.encode ns.parent),
    ("doc", encodeOption .ofString ns.doc),
    ("operations", encodeList Operation.encode ns.operations)]

/-! ### Services -/

/-- A container is written with its tag and its position. -/
def Container.encode : Container → Json
  | .group id => .ofMembers [("kind", .ofString "namespace"), ("id", id.encode)]
  | .interface id => .ofMembers [("kind", .ofString "interface"), ("id", id.encode)]

/-- A reference to an operation is written with its container and its name. -/
def OperationRef.encode (reference : OperationRef) : Json :=
  .ofMembers [("container", reference.container.encode), ("name", .ofString reference.name)]

/-- The name of a request method in documents. -/
def Verb.lowerText : Verb → String
  | get => "get"
  | put => "put"
  | post => "post"
  | patch => "patch"
  | delete => "delete"
  | head => "head"

/-- A parameter of a request is written with all its members. -/
def HttpParameter.encode (parameter : HttpParameter) : Json :=
  .ofMembers [
    ("name", .ofString parameter.name),
    ("location", .ofString parameter.location.text),
    ("type", parameter.type.encode),
    ("optional", .bool parameter.optional)]

/-- A status is written with its tag and its codes. -/
def StatusCode.encode : StatusCode → Json
  | .exact code => .ofMembers [("kind", .ofString "exact"), ("code", .ofNat code)]
  | .range start stop =>
    .ofMembers [("kind", .ofString "range"), ("start", .ofNat start), ("end", .ofNat stop)]
  | .default => .ofMembers [("kind", .ofString "default")]

/-- A response is written with all its members. -/
def HttpResponse.encode (response : HttpResponse) : Json :=
  .ofMembers [
    ("status", response.status.encode),
    ("body", encodeOption TypeId.encode response.body),
    ("span", encodeOption Span.encode response.span)]

/-- An endpoint is written with all its members. -/
def HttpOperation.encode (endpoint : HttpOperation) : Json :=
  .ofMembers [
    ("operation", endpoint.operation.encode),
    ("verb", .ofString endpoint.verb.lowerText),
    ("path", .ofString endpoint.path),
    ("parameters", encodeList HttpParameter.encode endpoint.parameters),
    ("responses", encodeList HttpResponse.encode endpoint.responses),
    ("span", encodeOption Span.encode endpoint.span)]

/-- The members of a way to authenticate, the tag first. -/
def AuthKind.members : AuthKind → List (String × Json)
  | .apiKey location name => [
      ("type", .ofString "api_key"),
      ("in", .ofString location.text),
      ("name", .ofString name)]
  | .http scheme => [("type", .ofString "http"), ("scheme", .ofString scheme)]
  | .oauth2 => [("type", .ofString "oauth2")]
  | .openIdConnect => [("type", .ofString "open_id_connect")]

/-- A scheme of authentication is written as its identifier, then the members of its kind. -/
def AuthScheme.encode (scheme : AuthScheme) : Json :=
  .ofMembers (("id", .ofString scheme.id) :: scheme.kind.members)

/-- The endpoints come before the schemes of authentication. -/
def HttpService.encode (http : HttpService) : Json :=
  .ofMembers [
    ("operations", encodeList HttpOperation.encode http.operations),
    ("auth", encodeList AuthScheme.encode http.auth)]

/-- A service is written with all its members. -/
def Service.encode (service : Service) : Json :=
  .ofMembers [
    ("namespace", service.root.encode),
    ("title", encodeOption .ofString service.title),
    ("version", encodeOption .ofString service.version),
    ("http", encodeOption HttpService.encode service.http)]

/-! ### Documents -/

/-- The document of a schema; the lists that linking rebuilds are not part of it. -/
def Schema.encode (schema : Schema) : Json :=
  .ofMembers [
    ("namespaces", encodeList Namespace.encode schema.graph.namespaces),
    ("types", encodeList TypeNode.encode schema.graph.types),
    ("service", schema.service.encode)]

/-- The text of the document of a schema. -/
def Schema.toText (schema : Schema) : String :=
  schema.encode.write

end ServiceBindings
