import RestRoutes.Files.Tree
import RestRoutes.Main
import RestRoutes.Proofs.Artifact.Outcome
import RestRoutes.Proofs.Artifact.Placement
import RestRoutes.Proofs.Artifact.Rollback
import RestRoutes.Proofs.Artifact.Staging
import RestRoutes.Proofs.Block.Composition
import RestRoutes.Proofs.Block.Decoration
import RestRoutes.Proofs.Block.Language
import RestRoutes.Proofs.Block.Run
import RestRoutes.Proofs.Command.Check
import RestRoutes.Proofs.Command.Frame
import RestRoutes.Proofs.Command.Inputs
import RestRoutes.Proofs.Compile.Agreement
import RestRoutes.Proofs.Compile.Binding
import RestRoutes.Proofs.Compile.Policy
import RestRoutes.Proofs.Except
import RestRoutes.Proofs.Files.Place
import RestRoutes.Proofs.Files.Run
import RestRoutes.Proofs.Files.Tree
import RestRoutes.Proofs.Files.Walk
import RestRoutes.Proofs.Json.Chain
import RestRoutes.Proofs.Json.Dereference
import RestRoutes.Proofs.Json.Expansion
import RestRoutes.Proofs.Json.ReferenceFree
import RestRoutes.Proofs.Json.Spelling
import RestRoutes.Proofs.Reference.Markup
import RestRoutes.Proofs.Reference.Matching
import RestRoutes.Proofs.Reference.Sections
import RestRoutes.Proofs.Related
import RestRoutes.Proofs.Route.Grammar
import RestRoutes.Proofs.Route.Keys
import RestRoutes.Proofs.Route.Pattern
import RestRoutes.Proofs.Route.Positions
import RestRoutes.Proofs.Route.Table
import RestRoutes.Proofs.Route.Template
import RestRoutes.Proofs.Route.Typing
import RestRoutes.Proofs.Router.Escapes
import RestRoutes.Proofs.Router.Handlers
import RestRoutes.Proofs.Router.Hygiene
import RestRoutes.Proofs.Router.Literal
import RestRoutes.Proofs.Router.Quoting
import RestRoutes.Proofs.Spec.Enumeration
import RestRoutes.Proofs.Spec.Growth
import RestRoutes.Proofs.Spec.Inheritance
import RestRoutes.Proofs.Spec.Operations
import RestRoutes.Proofs.Spec.Parameters
import RestRoutes.Proofs.Text.Division
import RestRoutes.Proofs.Text.Utf8
import RestRoutes.Proofs.Command.Listing
import RestRoutes.Proofs.Json.Space
import RestRoutes.Proofs.Block.Closing
import RestRoutes.Proofs.Block.Skipped
import RestRoutes.Proofs.Spec.Body
import RestRoutes.Proofs.Route.Fields
import RestRoutes.Proofs.Table
import RestRoutes.Proofs.Artifact.Stale
import RestRoutes.Proofs.Block.Layout
import RestRoutes.Proofs.Files.Preorder
import RestRoutes.Proofs.Files.Collection
import RestRoutes.Proofs.Reference.Envelope
import RestRoutes.Proofs.Block.Leaders
import RestRoutes.Proofs.Route.Listing
import RestRoutes.Proofs.Files.Spelling
import RestRoutes.Proofs.Command.Repetition
import RestRoutes.Proofs.Block.Definition
import RestRoutes.Proofs.Route.Stem
import RestRoutes.Proofs.Compile.Endpoints
