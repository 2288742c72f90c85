import PageRoutes.Command.Run
import PageRoutes.Invalidation
import PageRoutes.Main
import PageRoutes.Manifest.ModuleReader
import PageRoutes.Preflight.BuiltIn
import PageRoutes.Proofs.Manifest.ReadBack
import PageRoutes.Proofs.Text.Recogniser
import PageRoutes.Proofs.Manifest.Scraping
import PageRoutes.Proofs.Distinct
import PageRoutes.Proofs.Preflight.ManifestChecks
import PageRoutes.Proofs.Component.Named
import PageRoutes.Proofs.FileTree.Written
import PageRoutes.Proofs.Command.Preloaded
import PageRoutes.Proofs.Host.Namespaces
import PageRoutes.Proofs.Manifest.Covered
import PageRoutes.Proofs.Source.MethodEnd
import PageRoutes.Proofs.Component.Spelling
import PageRoutes.Proofs.Uri.Pieces
import PageRoutes.Proofs.Uri.ClientReading
import PageRoutes.Proofs.FileTree.Kept
import PageRoutes.Proofs.Command.Generated
import PageRoutes.Proofs.FileTree.Differing
import PageRoutes.Proofs.Component.Sources
import PageRoutes.Proofs.Component.Priority
import PageRoutes.Proofs.Preflight.History
import PageRoutes.Proofs.Json.Spelling
import PageRoutes.Proofs.Json.Printed
import PageRoutes.Proofs.Manifest.JsonReadBack
import PageRoutes.Proofs.Json.Members
import PageRoutes.Proofs.Preload.Built
import PageRoutes.Proofs.Json.Parts
import PageRoutes.Proofs.Route.Records
import PageRoutes.Proofs.Route.Spelled
import PageRoutes.Proofs.Route.Closures
import PageRoutes.Proofs.Json.Edits
import PageRoutes.Proofs.Settings.Edited
import PageRoutes.Proofs.Source.Calls
import PageRoutes.Proofs.Source.Bodies
import PageRoutes.Proofs.Source.OwnBodies
import PageRoutes.Proofs.Source.Registrations
import PageRoutes.Proofs.Uri.Filtered
import PageRoutes.Proofs.Uri.Decomposition
import PageRoutes.Proofs.Host.Located
import PageRoutes.Proofs.Preflight.Confirmation
import PageRoutes.Proofs.Preload.Joints
import PageRoutes.Proofs.Route.Identifiers
import PageRoutes.Proofs.Invalidation
import PageRoutes.Proofs.Source.LineSpans
