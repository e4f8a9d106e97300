import ServiceBindings.Schema.Types

/-!
# Services

The service that a schema describes: its namespace, and the HTTP endpoints that expose operations.
-/

namespace ServiceBindings

/-- Where an operation is declared. -/
inductive Container where
  | group (id : NamespaceId)
  | interface (id : TypeId)
  deriving DecidableEq, Repr

/-- The name of an operation and where it is declared. -/
structure OperationRef where
  container : Container
  name : String
  deriving DecidableEq, Repr

/-- A request method. -/
inductive Verb where
  | get
  | put
  | post
  | patch
  | delete
  | head
  deriving DecidableEq, Repr

/-- The request methods in the order of their declaration. -/
def Verb.all : List Verb := [get, put, post, patch, delete, head]

/-- The method as requests spell it. -/
def Verb.text : Verb → String
  | get => "GET"
  | put => "PUT"
  | post => "POST"
  | patch => "PATCH"
  | delete => "DELETE"
  | head => "HEAD"

/-- The part of a request that carries a parameter. -/
inductive ParameterLocation where
  | path
  | query
  | header
  | body
  deriving DecidableEq, Repr

/-- The word for a location. -/
def ParameterLocation.text : ParameterLocation → String
  | path => "path"
  | query => "query"
  | header => "header"
  | body => "body"

/-- A parameter of an endpoint. -/
structure HttpParameter where
  name : String
  location : ParameterLocation
  type : TypeId
  optional : Bool := false
  deriving DecidableEq, Repr

/-- The statuses that a response is sent with. -/
inductive StatusCode where
  | exact (code : Nat)
  | range (start stop : Nat)
  | default
  deriving DecidableEq, Repr

/-- Whether a status signals a failure when the body does not say. -/
def StatusCode.isError : StatusCode → Bool
  | exact code => 400 ≤ code
  | range start _ => 400 ≤ start
  | default => true

/-- A response of an endpoint; one without a body type is empty. -/
structure HttpResponse where
  status : StatusCode
  body : Option TypeId := none
  span : Option Span := none
  deriving DecidableEq, Repr

/-- An operation bound to a method and a path template. -/
structure HttpOperation where
  operation : OperationRef
  verb : Verb
  path : String
  parameters : List HttpParameter := []
  responses : List HttpResponse := []
  span : Option Span := none
  deriving DecidableEq, Repr

/-- The part of a request that carries an API key. -/
inductive ApiKeyLocation where
  | header
  | query
  | cookie
  deriving DecidableEq, Repr

/-- The word for the location of an API key. -/
def ApiKeyLocation.text : ApiKeyLocation → String
  | header => "header"
  | query => "query"
  | cookie => "cookie"

/-- A way to authenticate. -/
inductive AuthKind where
  | apiKey (location : ApiKeyLocation) (name : String)
  | http (scheme : String)
  | oauth2
  | openIdConnect
  deriving DecidableEq, Repr

/-- How messages describe a way to authenticate. -/
def AuthKind.describe : AuthKind → String
  | apiKey location _ => "API key in " ++ location.text
  | http scheme => "HTTP " ++ scheme
  | oauth2 => "OAuth2"
  | openIdConnect => "OpenID Connect"

/-- A named way to authenticate. -/
structure AuthScheme where
  id : String
  kind : AuthKind
  deriving DecidableEq, Repr

/-- The HTTP surface of a service. -/
structure HttpService where
  operations : List HttpOperation := []
  auth : List AuthScheme := []
  deriving DecidableEq, Repr

/-- The service to compile. -/
structure Service where
  root : NamespaceId
  title : Option String := none
  version : Option String := none
  http : Option HttpService := none
  deriving DecidableEq, Repr

end ServiceBindings
