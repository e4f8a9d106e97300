import ServiceBindings.Code.Enumeration
import ServiceBindings.Code.Lines
import ServiceBindings.Code.Record
import ServiceBindings.Code.Trait
import ServiceBindings.Code.Union
import ServiceBindings.CommandLine.Answer
import ServiceBindings.CommandLine.Arguments
import ServiceBindings.CommandLine.Command
import ServiceBindings.Compile
import ServiceBindings.CompileError
import ServiceBindings.Config
import ServiceBindings.Decimal.Binary64
import ServiceBindings.Decimal.Format
import ServiceBindings.Decimal.Shortest
import ServiceBindings.Diagnostic.Basic
import ServiceBindings.Diagnostic.Row
import ServiceBindings.Diagnostic.Snippet
import ServiceBindings.Diagnostic.Window
import ServiceBindings.Draft.Basic
import ServiceBindings.Draft.Completion
import ServiceBindings.Draft.Declaration
import ServiceBindings.Draft.Place
import ServiceBindings.Draft.Reference
import ServiceBindings.Draft.Return
import ServiceBindings.Draft.Surface
import ServiceBindings.Files.Store
import ServiceBindings.Http.Credential
import ServiceBindings.Http.Endpoint
import ServiceBindings.Http.Outcome
import ServiceBindings.Http.Request
import ServiceBindings.Http.Router
import ServiceBindings.Http.Serve
import ServiceBindings.Json.Decoder
import ServiceBindings.Json.Number
import ServiceBindings.Json.Reader
import ServiceBindings.Json.Value
import ServiceBindings.Json.Writer
import ServiceBindings.Main
import ServiceBindings.Module.Layout
import ServiceBindings.Module.Path
import ServiceBindings.Module.Tree
import ServiceBindings.Naming.Identifier
import ServiceBindings.Naming.Scope
import ServiceBindings.Naming.Words
import ServiceBindings.Proofs.Chain
import ServiceBindings.Proofs.Code.Lines
import ServiceBindings.Proofs.Code.TraitText
import ServiceBindings.Proofs.Draft.Allowing
import ServiceBindings.Proofs.Draft.Anchoring
import ServiceBindings.Proofs.Draft.Asking
import ServiceBindings.Proofs.Draft.Boxing
import ServiceBindings.Proofs.Draft.Completion
import ServiceBindings.Proofs.Draft.Consistency
import ServiceBindings.Proofs.Draft.Demand
import ServiceBindings.Proofs.Draft.Emission
import ServiceBindings.Proofs.Draft.Execution
import ServiceBindings.Proofs.Draft.Growth
import ServiceBindings.Proofs.Draft.History
import ServiceBindings.Proofs.Draft.Mention
import ServiceBindings.Proofs.Draft.OutputFiles
import ServiceBindings.Proofs.Draft.Placement
import ServiceBindings.Proofs.Draft.Reachability
import ServiceBindings.Proofs.Draft.Rendering
import ServiceBindings.Proofs.Draft.Respelling
import ServiceBindings.Proofs.Draft.Return
import ServiceBindings.Proofs.Draft.ScalarSpelling
import ServiceBindings.Proofs.Draft.Session
import ServiceBindings.Proofs.Draft.Shelf
import ServiceBindings.Proofs.Draft.Spelling
import ServiceBindings.Proofs.Draft.Splitting
import ServiceBindings.Proofs.Draft.Stability
import ServiceBindings.Proofs.Draft.Surface
import ServiceBindings.Proofs.Draft.SurfaceDemand
import ServiceBindings.Proofs.Draft.SyntheticNames
import ServiceBindings.Proofs.Draft.Tally
import ServiceBindings.Proofs.Draft.Target
import ServiceBindings.Proofs.Draft.Termination
import ServiceBindings.Proofs.Draft.Traversal
import ServiceBindings.Proofs.Draft.Variants
import ServiceBindings.Proofs.Http.Answer
import ServiceBindings.Proofs.Http.Call
import ServiceBindings.Proofs.Http.Classification
import ServiceBindings.Proofs.Http.Emission
import ServiceBindings.Proofs.Http.EndpointNames
import ServiceBindings.Proofs.Http.Outcome
import ServiceBindings.Proofs.Http.Parameters
import ServiceBindings.Proofs.Http.PathText
import ServiceBindings.Proofs.Http.RequestPath
import ServiceBindings.Proofs.Http.RequestText
import ServiceBindings.Proofs.Http.Router
import ServiceBindings.Proofs.Http.RouterText
import ServiceBindings.Proofs.Http.ServeText
import ServiceBindings.Proofs.Http.Serving
import ServiceBindings.Proofs.Http.SurfaceText
import ServiceBindings.Proofs.Json.Codec
import ServiceBindings.Proofs.Json.Number
import ServiceBindings.Proofs.Json.ReadBack
import ServiceBindings.Proofs.Module.FilePath
import ServiceBindings.Proofs.Module.Filing
import ServiceBindings.Proofs.Module.Lookup
import ServiceBindings.Proofs.Module.Nesting
import ServiceBindings.Proofs.Module.Path
import ServiceBindings.Proofs.Module.Reading
import ServiceBindings.Proofs.Module.Tree
import ServiceBindings.Proofs.Naming.Fusion
import ServiceBindings.Proofs.Naming.Identifier
import ServiceBindings.Proofs.Naming.Lexical
import ServiceBindings.Proofs.Naming.Pascal
import ServiceBindings.Proofs.Naming.Pieces
import ServiceBindings.Proofs.Naming.Scope
import ServiceBindings.Proofs.Naming.Settled
import ServiceBindings.Proofs.Naming.Words
import ServiceBindings.Proofs.Route.Binding
import ServiceBindings.Proofs.Route.Compression
import ServiceBindings.Proofs.Route.Contents
import ServiceBindings.Proofs.Route.Diversion
import ServiceBindings.Proofs.Route.Exactness
import ServiceBindings.Proofs.Route.Grouping
import ServiceBindings.Proofs.Route.Groups
import ServiceBindings.Proofs.Route.Matching
import ServiceBindings.Proofs.Route.Order
import ServiceBindings.Proofs.Route.Outline
import ServiceBindings.Proofs.Route.Remainder
import ServiceBindings.Proofs.Route.Served
import ServiceBindings.Proofs.Route.Shape
import ServiceBindings.Proofs.Route.Soundness
import ServiceBindings.Proofs.Route.TemplateText
import ServiceBindings.Proofs.Route.Walk
import ServiceBindings.Proofs.Schema.Codec
import ServiceBindings.Proofs.Schema.Containment
import ServiceBindings.Proofs.Schema.Descent
import ServiceBindings.Proofs.Schema.Indexing
import ServiceBindings.Proofs.Schema.Linking
import ServiceBindings.Proofs.Schema.NamespacePath
import ServiceBindings.Proofs.Schema.Recursion
import ServiceBindings.Proofs.Schema.RoundTrip
import ServiceBindings.Proofs.Schema.ServiceCodec
import ServiceBindings.Proofs.Schema.Validation
import ServiceBindings.Proofs.Text.Case
import ServiceBindings.Proofs.Text.Lines
import ServiceBindings.Proofs.Text.Reading
import ServiceBindings.Proofs.Worklist
import ServiceBindings.Route.Listing
import ServiceBindings.Route.Template
import ServiceBindings.Route.Tree
import ServiceBindings.Schema.Containment
import ServiceBindings.Schema.Decode
import ServiceBindings.Schema.Encode
import ServiceBindings.Schema.Graph
import ServiceBindings.Schema.Link
import ServiceBindings.Schema.Literal
import ServiceBindings.Schema.Scalar
import ServiceBindings.Schema.Service
import ServiceBindings.Schema.Types
import ServiceBindings.Text.Blank
import ServiceBindings.Text.CharacterRun
import ServiceBindings.Text.Hidden
import ServiceBindings.Text.Lines
import ServiceBindings.Text.Lowercase
import ServiceBindings.Text.Mark
import ServiceBindings.Text.Occurrence
import ServiceBindings.Text.Quoted
import ServiceBindings.Text.Uppercase
import ServiceBindings.Text.Width
import ServiceBindings.Worklist
