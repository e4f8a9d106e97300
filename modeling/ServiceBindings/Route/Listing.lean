import ServiceBindings.Route.Tree
import ServiceBindings.Text.Lines
import ServiceBindings.Text.Quoted

/-!
# Listing routes

The route tree of a service as indented text: methods with the names of their endpoints, literal
edges as quoted text, and parameter edges as names in braces.
-/

namespace ServiceBindings

namespace RouteNode

/-- Lines two columns deeper. -/
def shiftLines (lines : List String) : List String :=
  lines.map ("  " ++ ·)

mutual

/-- The lines of a node. -/
def listing (label : Nat → String) : RouteNode → List String
  | mk terminals literals parameter =>
    terminals.map (fun terminal => terminal.verb.text ++ " " ++ label terminal.endpoint)
      ++ literalListing label literals ++ parameterListing label parameter

/-- The lines of literal edges. -/
def literalListing (label : Nat → String) : List (List Char × RouteNode) → List String
  | [] => []
  | (text, node) :: rest =>
    String.ofList (Text.quotedChars text) :: shiftLines (listing label node)
      ++ literalListing label rest

/-- The lines of a parameter edge. -/
def parameterListing (label : Nat → String) : Option (List String × RouteNode) → List String
  | none => []
  | some (names, node) =>
    ("\x7b" ++ "|".intercalate names ++ "\x7d") :: shiftLines (listing label node)

end

/-- The listing of a tree. -/
def list (tree : RouteNode) (label : Nat → String) : String :=
  Text.unlines (tree.listing label)

/-- The listing of a tree with endpoints named by their positions. -/
def display (tree : RouteNode) : String :=
  tree.list fun endpoint => "#" ++ toString endpoint

end RouteNode

/-- The route tree of the endpoints of a service, named by their positions. -/
def HttpService.routes (http : HttpService) : RouteNode :=
  RouteNode.ofRoutes
    (http.operations.zipIdx.map fun (endpoint, i) =>
      Route.ofTemplate i endpoint.verb endpoint.path)

end ServiceBindings
