import ServiceBindings.Json.Decoder
import ServiceBindings.Json.Reader
import ServiceBindings.Schema.Link

/-!
# Reading schemas

A schema document is an object with the namespaces, the types and the service. Most of it is read
only after it has been checked as a whole; in the service, members with unknown keys are skipped and
may hold anything.
-/

namespace ServiceBindings

open Json

/-- Positions are numbers of 32 bits. -/
def positionBound : Nat := 4294967296

/-- Status codes are numbers of 16 bits. -/
def statusBound : Nat := 65536

/-- The deepest nesting of arrays and objects in a document. -/
def maxDepth : Nat := 127

/-- A decoder that refuses values that are not sound; the value stands `depth` levels deep. -/
def soundAt {α : Type} (depth : Nat) (decode : Json → Option α) (json : Json) : Option α :=
  if json.isSound (maxDepth - depth) then decode json else none

/-! ### Types -/

/-- A type is referred to by its position. -/
def TypeId.decode (json : Json) : Option TypeId :=
  (json.asNatBelow positionBound).map TypeId.mk

/-- A namespace is referred to by its position. -/
def NamespaceId.decode (json : Json) : Option NamespaceId :=
  (json.asNatBelow positionBound).map NamespaceId.mk

/-- A span has a start and an end. -/
def Span.decode (json : Json) : Option Span :=
  match json.fields ["start", "end"] with
  | some [start, stop] => do
    let start ← required (asNatBelow positionBound) start
    let stop ← required (asNatBelow positionBound) stop
    return { start, stop }
  | _ => none

/-- The number that a JSON number stands for. -/
def numberValue : JsonNumber → Option Binary64
  | .natural n => Binary64.ofNat n
  | .negative n => (Binary64.ofNat n).map Binary64.neg
  | .fraction x => some x
  | .tooGreat => none

/-- A literal value is a boolean, a number or a text; every number is read as a binary one. -/
def LiteralValue.decode : Json → Option LiteralValue
  | .bool value => some (.bool value)
  | .number value => (numberValue value).map .number
  | .string (some text) => some (.string text)
  | _ => none

/-- An encoding has a name and a type. -/
def Encoding.decode (json : Json) : Option Encoding :=
  match json.fields ["name", "type"] with
  | some [name, type] => do
    let name ← required asText name
    let type ← required TypeId.decode type
    return { name, type }
  | _ => none

/-- A field needs a name and a type; it is not optional unless it says so. -/
def Field.decode (json : Json) : Option Field :=
  match json.fields ["name", "type", "optional", "wire_name", "encoding", "doc", "span"] with
  | some [name, type, opt, wireName, encoding, doc, span] => do
    let name ← required asText name
    let type ← required TypeId.decode type
    let opt ← withDefault false asBool opt
    let wireName ← Json.optional asText wireName
    let encoding ← Json.optional Encoding.decode encoding
    let doc ← Json.optional asText doc
    let span ← Json.optional Span.decode span
    return { name, type, optional := opt, wireName, encoding, doc, span }
  | _ => none

/-- An operation needs a name and a return type. -/
def Operation.decode (json : Json) : Option Operation :=
  match json.fields ["name", "parameters", "return_type", "doc", "span"] with
  | some [name, parameters, returnType, doc, span] => do
    let name ← required asText name
    let parameters ← withDefault [] (asList Field.decode) parameters
    let returnType ← required TypeId.decode returnType
    let doc ← Json.optional asText doc
    let span ← Json.optional Span.decode span
    return { name, parameters, returnType, doc, span }
  | _ => none

/-- A scalar needs a name and a namespace. -/
def ScalarType.decode (json : Json) : Option ScalarType :=
  match json.fields ["name", "namespace", "base"] with
  | some [name, owner, base] => do
    let name ← required asText name
    let owner ← required NamespaceId.decode owner
    let base ← Json.optional TypeId.decode base
    return { name, owner, base }
  | _ => none

/-- A record needs nothing: without a name it is anonymous. -/
def RecordType.decode (json : Json) : Option RecordType :=
  match json.fields ["name", "namespace", "template_args", "friendly_name", "fields", "error"] with
  | some [name, owner, templateArgs, friendlyName, fields, error] => do
    let name ← Json.optional asText name
    let owner ← Json.optional NamespaceId.decode owner
    let templateArgs ← withDefault [] (asList asText) templateArgs
    let friendlyName ← Json.optional asText friendlyName
    let fields ← withDefault [] (asList Field.decode) fields
    let error ← withDefault false asBool error
    return { name, owner, templateArgs, friendlyName, fields, error }
  | _ => none

/-- A member of an enumeration needs a name. -/
def EnumMember.decode (json : Json) : Option EnumMember :=
  match json.fields ["name", "value", "doc"] with
  | some [name, value, doc] => do
    let name ← required asText name
    let value ← Json.optional LiteralValue.decode value
    let doc ← Json.optional asText doc
    return { name, value, doc }
  | _ => none

/-- An enumeration needs a name, a namespace and its members. -/
def EnumType.decode (json : Json) : Option EnumType :=
  match json.fields ["name", "namespace", "members"] with
  | some [name, owner, members] => do
    let name ← required asText name
    let owner ← required NamespaceId.decode owner
    let members ← required (asList EnumMember.decode) members
    return { name, owner, members }
  | _ => none

/-- A variant of a union needs a type. -/
def UnionVariant.decode (json : Json) : Option UnionVariant :=
  match json.fields ["name", "type"] with
  | some [name, type] => do
    let name ← Json.optional asText name
    let type ← required TypeId.decode type
    return { name, type }
  | _ => none

/-- A union needs its variants; without a name it is anonymous. -/
def UnionType.decode (json : Json) : Option UnionType :=
  match json.fields ["name", "namespace", "variants", "discriminator"] with
  | some [name, owner, variants, discriminator] => do
    let name ← Json.optional asText name
    let owner ← Json.optional NamespaceId.decode owner
    let variants ← required (asList UnionVariant.decode) variants
    let discriminator ← Json.optional asText discriminator
    return { name, owner, variants, discriminator }
  | _ => none

/-- An interface needs a name and a namespace. -/
def InterfaceType.decode (json : Json) : Option InterfaceType :=
  match json.fields ["name", "namespace", "operations"] with
  | some [name, owner, operations] => do
    let name ← required asText name
    let owner ← required NamespaceId.decode owner
    let operations ← withDefault [] (asList Operation.decode) operations
    return { name, owner, operations }
  | _ => none

/-- The names of the intrinsic types. -/
def Intrinsic.names : List (String × Intrinsic) := [
  ("never", .never), ("void", .void), ("null", .null), ("unknown", .unknown),
  ("error_type", .errorType)]

/-- A record with a single field. -/
def singleField {α : Type} (key : String) (decode : Json → Option α) (json : Json) : Option α :=
  match json.fields [key] with
  | some [value] => required decode value
  | _ => none

/-- The kinds of types by their tags. -/
def TypeKind.decoders : List (String × (Json → Option TypeKind)) := [
  ("scalar", fun json => (ScalarType.decode json).map .scalar),
  ("record", fun json => (RecordType.decode json).map .record),
  ("enum", fun json => (EnumType.decode json).map .enum),
  ("union", fun json => (UnionType.decode json).map .union),
  ("interface", fun json => (InterfaceType.decode json).map .interface),
  ("array", singleField "element" fun json => (TypeId.decode json).map .array),
  ("map", singleField "value" fun json => (TypeId.decode json).map .map),
  ("literal", singleField "value" fun json => (LiteralValue.decode json).map .literal),
  ("intrinsic", singleField "name" fun json =>
    (asChoice isNullOrEmpty Intrinsic.names json).map .intrinsic)]

/-- The kind of a type is read from the members of its object, by the tag among them. -/
def TypeKind.decode (members : List (Option String × Json)) : Option TypeKind := do
  let (tag, rest) ← taggedObject "kind" members
  let decode ← tagChoice TypeKind.decoders tag
  decode rest

/-- A type is the members of its kind with documentation and a span beside them. -/
def TypeNode.decode : Json → Option TypeNode
  | .object members =>
    match objectFields ["doc", "span"] members with
    | some [doc, span] => do
      let doc ← Json.optional asText doc
      let span ← Json.optional Span.decode span
      let kind ← TypeKind.decode members
      return { kind, doc, span }
    | _ => none
  | _ => none

/-- A namespace needs a name. -/
def Namespace.decode (json : Json) : Option Namespace :=
  match json.fields ["name", "parent", "doc", "operations"] with
  | some [name, parent, doc, operations] => do
    let name ← required asText name
    let parent ← Json.optional NamespaceId.decode parent
    let doc ← Json.optional asText doc
    let operations ← withDefault [] (asList Operation.decode) operations
    return { name, parent, doc, operations }
  | _ => none

/-! ### Services -/

/-- The tags of containers. -/
def Container.decoders : List (String × (Json → Option Container)) := [
  ("namespace", singleField "id" fun json => (NamespaceId.decode json).map .group),
  ("interface", singleField "id" fun json => (TypeId.decode json).map .interface)]

/-- A container has a tag and a position. -/
def Container.decode (json : Json) : Option Container := do
  let (tag, rest) ← tagged "kind" json
  let name ← asText tag
  let decode ← namedChoice Container.decoders name
  decode rest

/-- A reference to an operation has its container and its name. -/
def OperationRef.decode (json : Json) : Option OperationRef :=
  match json.fields ["container", "name"] with
  | some [container, name] => do
    let container ← required (soundAt 6 Container.decode) container
    let name ← required asText name
    return { container, name }
  | _ => none

/-- The names of the request methods. -/
def Verb.names : List (String × Verb) := [
  ("get", .get), ("put", .put), ("post", .post), ("patch", .patch), ("delete", .delete),
  ("head", .head)]

/-- A request method is read by its name. -/
def Verb.decode (json : Json) : Option Verb :=
  asChoice isNull Verb.names json

/-- The names of the parts of a request. -/
def ParameterLocation.names : List (String × ParameterLocation) := [
  ("path", .path), ("query", .query), ("header", .header), ("body", .body)]

/-- A parameter of a request needs a name, a location and a type. -/
def HttpParameter.decode (json : Json) : Option HttpParameter :=
  match json.fields ["name", "location", "type", "optional"] with
  | some [name, location, type, opt] => do
    let name ← required asText name
    let location ← required (asChoice isNull ParameterLocation.names) location
    let type ← required TypeId.decode type
    let opt ← withDefault false asBool opt
    return { name, location, type, optional := opt }
  | _ => none

/-- A range of status codes. -/
def StatusCode.decodeRange (json : Json) : Option StatusCode :=
  match json.fields ["start", "end"] with
  | some [start, stop] => do
    let start ← required (asNatBelow statusBound) start
    let stop ← required (asNatBelow statusBound) stop
    return .range start stop
  | _ => none

/-- The tags of statuses. -/
def StatusCode.decoders : List (String × (Json → Option StatusCode)) := [
  ("exact", singleField "code" fun json => (json.asNatBelow statusBound).map .exact),
  ("range", StatusCode.decodeRange),
  ("default", noFields .default)]

/-- A status is one code, a range of codes or the default. -/
def StatusCode.decode (json : Json) : Option StatusCode := do
  let (tag, rest) ← tagged "kind" json
  let name ← asText tag
  let decode ← namedChoice StatusCode.decoders name
  decode rest

/-- A response needs a status. -/
def HttpResponse.decode (json : Json) : Option HttpResponse :=
  match json.fields ["status", "body", "span"] with
  | some [status, body, span] => do
    let status ← required (soundAt 7 StatusCode.decode) status
    let body ← Json.optional TypeId.decode body
    let span ← Json.optional Span.decode span
    return { status, body, span }
  | _ => none

/-- An endpoint needs an operation, a request method and a path. -/
def HttpOperation.decode (json : Json) : Option HttpOperation :=
  match json.fields ["operation", "verb", "path", "parameters", "responses", "span"] with
  | some [operation, verb, path, parameters, responses, span] => do
    let operation ← required OperationRef.decode operation
    let verb ← required Verb.decode verb
    let path ← required asText path
    let parameters ← withDefault [] (asList HttpParameter.decode) parameters
    let responses ← withDefault [] (asList HttpResponse.decode) responses
    let span ← Json.optional Span.decode span
    return { operation, verb, path, parameters, responses, span }
  | _ => none

/-- The names of the places of an API key. -/
def ApiKeyLocation.names : List (String × ApiKeyLocation) := [
  ("header", .header), ("query", .query), ("cookie", .cookie)]

/-- An API key and where it is sent. -/
def AuthKind.decodeApiKey (json : Json) : Option AuthKind :=
  match json.fields ["in", "name"] with
  | some [location, name] => do
    let location ← required (asChoice isNullOrEmpty ApiKeyLocation.names) location
    let name ← required asText name
    return .apiKey location name
  | _ => none

/-- The tags of the ways to authenticate. -/
def AuthKind.decoders : List (String × (Json → Option AuthKind)) := [
  ("api_key", AuthKind.decodeApiKey),
  ("http", singleField "scheme" fun json => (asText json).map .http),
  ("oauth2", noFields .oauth2),
  ("open_id_connect", noFields .openIdConnect)]

/-- A way to authenticate is read from the members of its object, by the tag among them. -/
def AuthKind.decode (members : List (Option String × Json)) : Option AuthKind := do
  let (tag, rest) ← taggedObject "type" members
  let decode ← tagChoice AuthKind.decoders tag
  decode rest

/-- A scheme of authentication is the members of its kind with an identifier beside them. -/
def AuthScheme.decode : Json → Option AuthScheme
  | .object members =>
    match objectFields ["id"] members with
    | some [id] => do
      let id ← required asText id
      let kind ← AuthKind.decode members
      return { id, kind }
    | _ => none
  | _ => none

/-- The endpoints and the schemes of authentication of a service may both be missing. -/
def HttpService.decode (json : Json) : Option HttpService :=
  match json.fields ["operations", "auth"] with
  | some [operations, auth] => do
    let operations ← withDefault [] (asList HttpOperation.decode) operations
    let auth ← withDefault [] (asList (soundAt 4 AuthScheme.decode)) auth
    return { operations, auth }
  | _ => none

/-- A service needs its root namespace. -/
def Service.decode (json : Json) : Option Service :=
  match json.fields ["namespace", "title", "version", "http"] with
  | some [root, title, version, http] => do
    let root ← required NamespaceId.decode root
    let title ← Json.optional asText title
    let version ← Json.optional asText version
    let http ← Json.optional HttpService.decode http
    return { root, title, version, http }
  | _ => none

/-! ### Documents -/

/-- Whether the members of a document other than the service are sound. -/
def documentIsSound (members : List (Option String × Json)) : Bool :=
  members.all fun member => member.1 = some "service" || member.2.isSound (maxDepth - 1)

/-- The graph and the service of a document, not linked yet. -/
def Schema.decode : Json → Option Schema
  | .object members =>
    if documentIsSound members then
      match objectFields ["namespaces", "types", "service"] members with
      | some [namespaces, types, service] => do
        let namespaces ← required (asList Namespace.decode) namespaces
        let types ← withDefault [] (asList TypeNode.decode) types
        let service ← required Service.decode service
        return ⟨{ namespaces, types }, service⟩
      | _ => none
    else none
  | _ => none

/-- Reads a schema document, links its graph and checks its service. -/
def Schema.ofText (text : String) : Except CompileError Schema :=
  match (Json.read text).bind Schema.decode with
  | none => .error .document
  | some schema => Schema.make schema.graph schema.service

/-- Reads a literal value. -/
def LiteralValue.ofText (text : String) : Option LiteralValue :=
  (Json.read text).bind LiteralValue.decode

end ServiceBindings
