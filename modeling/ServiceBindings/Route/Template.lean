import ServiceBindings.Schema.Service

/-!
# Path templates

A path template is literal text with parameters in braces. A slash is literal text like any other;
an opening brace that is never closed makes the rest of the template a parameter.
-/

namespace ServiceBindings

/-- A part of a path template. -/
inductive Segment where
  | literal (text : List Char)
  | parameter (name : List Char)
  deriving DecidableEq, Repr

namespace Template

/-- Puts literal text in front of the segments after it; empty text is dropped. -/
def closeLiteral (text : List Char) (rest : List Segment) : List Segment :=
  if text.isEmpty then rest else .literal text :: rest

/-- The segments of a text; `part` is what has been read of the current segment, which is a
parameter when `inside` holds. -/
def scan (inside : Bool) (part : List Char) : List Char → List Segment
  | [] => if inside then [.parameter part] else closeLiteral part []
  | c :: cs =>
    if inside then
      if c = '\x7d' then .parameter part :: scan false [] cs else scan true (part ++ [c]) cs
    else
      if c = '\x7b' then closeLiteral part (scan true [] cs) else scan false (part ++ [c]) cs

/-- The segments of a path template. -/
def parse (template : String) : List Segment :=
  scan false [] template.toList

/-- The text of a segment. -/
def segmentText : Segment → List Char
  | .literal text => text
  | .parameter name => '\x7b' :: name ++ ['\x7d']

/-- The text of segments. -/
def write (segments : List Segment) : List Char :=
  segments.flatMap segmentText

/-- The names of the parameters, in order. -/
def parameterNames (segments : List Segment) : List String :=
  segments.filterMap fun segment =>
    match segment with
    | .parameter name => some (String.ofList name)
    | .literal _ => none

end Template

/-- A step in matching a path: one character, or a capture up to the next slash. -/
inductive Step where
  | char (c : Char)
  | capture (name : String)
  deriving DecidableEq, Repr

/-- The steps of a segment. -/
def Segment.steps : Segment → List Step
  | .literal text => text.map .char
  | .parameter name => [.capture (String.ofList name)]

/-- The route of an endpoint. -/
structure Route where
  endpoint : Nat
  verb : Verb
  segments : List Segment
  deriving DecidableEq, Repr

namespace Route

/-- The route of a path template. -/
def ofTemplate (endpoint : Nat) (verb : Verb) (template : String) : Route :=
  ⟨endpoint, verb, Template.parse template⟩

/-- The steps of a route. -/
def steps (route : Route) : List Step :=
  route.segments.flatMap Segment.steps

end Route

end ServiceBindings
