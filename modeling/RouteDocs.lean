import RouteDocs.Main
import RouteDocs.Proofs.Schema.Parts
import RouteDocs.Proofs.Store.Record
import RouteDocs.Proofs.Store.Lifting
import RouteDocs.Proofs.Store.FieldObjects
import RouteDocs.Proofs.Store.Expansion
import RouteDocs.Proofs.Store.References
import RouteDocs.Proofs.Store.NormalForm
import RouteDocs.Proofs.Store.Repetition
import RouteDocs.Proofs.Convert.Everywhere
import RouteDocs.Proofs.Operation.Extraction
import RouteDocs.Proofs.Operation.Liftings
import RouteDocs.Proofs.Operation.Components
import RouteDocs.Proofs.Operation.RootObjects
import RouteDocs.Proofs.Document.Claims
import RouteDocs.Proofs.Document.Calls
import RouteDocs.Proofs.Document.References
import RouteDocs.Proofs.Document.Collisions
import RouteDocs.Proofs.Document.Account
import RouteDocs.Proofs.Document.SharedServers
import RouteDocs.Proofs.Document.Fields
import RouteDocs.Proofs.Sorting
import RouteDocs.Proofs.Document.PathOrder
import RouteDocs.Proofs.Document.History
import RouteDocs.Proofs.Document.ClaimedOnce
import RouteDocs.Proofs.Document.Unfiltered
import RouteDocs.Proofs.Document.OneRoute
import RouteDocs.Proofs.Document.Reordered
import RouteDocs.Proofs.Convert.Termination
import RouteDocs.Proofs.Convert.Builtin
import RouteDocs.Proofs.Convert.Siblings
import RouteDocs.Proofs.Convert.PlainNames
import RouteDocs.Proofs.Convert.WellFormed
import RouteDocs.Proofs.Convert.Nullable
import RouteDocs.Proofs.Convert.Fallbacks
import RouteDocs.Proofs.Convert.Circle
import RouteDocs.Proofs.Convert.EarlierLine
import RouteDocs.Proofs.Document.Emitted
import RouteDocs.Proofs.Document.Outcome
import RouteDocs.Proofs.Document.Dropped
import RouteDocs.Proofs.Document.Base
import RouteDocs.Proofs.Rule.Shorthand
import RouteDocs.Proofs.Convert.Omitted
import RouteDocs.Proofs.Rule.Brackets
import RouteDocs.Proofs.Rule.NestedType
import RouteDocs.Proofs.Rule.RootMark
import RouteDocs.Proofs.Rule.FieldKeys
import RouteDocs.Proofs.Rule.FirstFault
import RouteDocs.Proofs.Document.TagList
import RouteDocs.Proofs.Document.ServerList
import RouteDocs.Proofs.Route.NormalPath
import RouteDocs.Proofs.Route.Precedence
import RouteDocs.Proofs.Document.LastCall
import RouteDocs.Proofs.Operation.ParameterNames
import RouteDocs.Proofs.Route.Segments
import RouteDocs.Proofs.Convert.Currency
import RouteDocs.Proofs.Operation.Summary
import RouteDocs.Proofs.Document.Swept
