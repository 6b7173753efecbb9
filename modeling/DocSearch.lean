import DocSearch.Action.Basic
import DocSearch.Action.Event
import DocSearch.Aggregation.Expansion
import DocSearch.Aggregation.Tree
import DocSearch.Builder.Basic
import DocSearch.Builder.Call
import DocSearch.Builder.Document
import DocSearch.Builder.Execution
import DocSearch.Builder.Page
import DocSearch.Builder.Session
import DocSearch.Config.Address
import DocSearch.Config.Connection
import DocSearch.Config.Field
import DocSearch.Config.Host
import DocSearch.Config.Internet
import DocSearch.Config.Settings
import DocSearch.Dispatch
import DocSearch.Entries
import DocSearch.Error
import DocSearch.Gateway.Basic
import DocSearch.Gateway.Cluster
import DocSearch.Gateway.Manager
import DocSearch.Gateway.Store
import DocSearch.Gateway.Wire
import DocSearch.Logging.Entry
import DocSearch.Logging.Level
import DocSearch.Logging.Loggers
import DocSearch.Logging.Message
import DocSearch.Logging.Place
import DocSearch.Mapping.Basic
import DocSearch.Number.Basic
import DocSearch.Number.Layout
import DocSearch.Number.Places
import DocSearch.Number.Reading
import DocSearch.Number.Shortest
import DocSearch.Proofs.Action.Attempts
import DocSearch.Proofs.Action.Outcomes
import DocSearch.Proofs.Action.Refusals
import DocSearch.Proofs.Aggregation.Acceptance
import DocSearch.Proofs.Aggregation.Coercion
import DocSearch.Proofs.Aggregation.Copies
import DocSearch.Proofs.Aggregation.Documents
import DocSearch.Proofs.Aggregation.Families
import DocSearch.Proofs.Aggregation.Notations
import DocSearch.Proofs.Aggregation.Pieces
import DocSearch.Proofs.Aggregation.Recovery
import DocSearch.Proofs.Builder.Boosts
import DocSearch.Proofs.Builder.Changes
import DocSearch.Proofs.Builder.Compilation
import DocSearch.Proofs.Builder.Consumption
import DocSearch.Proofs.Builder.Copies
import DocSearch.Proofs.Builder.Directions
import DocSearch.Proofs.Builder.Failures
import DocSearch.Proofs.Builder.History
import DocSearch.Proofs.Builder.Interleaving
import DocSearch.Proofs.Builder.NestedValues
import DocSearch.Proofs.Builder.Orders
import DocSearch.Proofs.Builder.Outputs
import DocSearch.Proofs.Builder.Permutations
import DocSearch.Proofs.Builder.Ranking
import DocSearch.Proofs.Builder.Reports
import DocSearch.Proofs.Builder.Rescoring
import DocSearch.Proofs.Builder.Strictness
import DocSearch.Proofs.Builder.Unrolling
import DocSearch.Proofs.Builder.Uses
import DocSearch.Proofs.Builder.Wrapping
import DocSearch.Proofs.Config.Addresses
import DocSearch.Proofs.Config.Connections
import DocSearch.Proofs.Config.Failures
import DocSearch.Proofs.Config.Hosts
import DocSearch.Proofs.Config.Ports
import DocSearch.Proofs.Gateway.ClientFailures
import DocSearch.Proofs.Gateway.Clients
import DocSearch.Proofs.Gateway.FailedWrites
import DocSearch.Proofs.Gateway.Journal
import DocSearch.Proofs.Gateway.Managers
import DocSearch.Proofs.Gateway.Mappings
import DocSearch.Proofs.Gateway.Operations
import DocSearch.Proofs.Gateway.Prefixes
import DocSearch.Proofs.Gateway.Reached
import DocSearch.Proofs.Gateway.Refinement
import DocSearch.Proofs.Gateway.Searches
import DocSearch.Proofs.Logging.Levels
import DocSearch.Proofs.Logging.Lines
import DocSearch.Proofs.Mapping.Schemas
import DocSearch.Proofs.Query.Copies
import DocSearch.Proofs.Search.Filtering
import DocSearch.Proofs.Search.Listings
import DocSearch.Proofs.Search.Names
import DocSearch.Proofs.Search.Ordering
import DocSearch.Proofs.Search.Paging
import DocSearch.Proofs.Search.Permutations
import DocSearch.Proofs.Search.Positions
import DocSearch.Proofs.Search.Sortable
import DocSearch.Proofs.Text.Cuts
import DocSearch.Proofs.Text.Digits
import DocSearch.Proofs.Value.Copies
import DocSearch.Proofs.Value.Fields
import DocSearch.Proofs.Value.Freezing
import DocSearch.Proofs.Value.Thawing
import DocSearch.Proofs.Value.Worded
import DocSearch.Query.Clause
import DocSearch.Query.Composition
import DocSearch.Query.Draft
import DocSearch.Query.Groups
import DocSearch.Query.Record
import DocSearch.Query.Scoring
import DocSearch.Search.Basic
import DocSearch.Search.Condition
import DocSearch.Search.Lookup
import DocSearch.Search.Matching
import DocSearch.Search.Order
import DocSearch.Search.Score
import DocSearch.Sorting.Front
import DocSearch.Sorting.Merging
import DocSearch.Sorting.Run
import DocSearch.Sorting.Seam
import DocSearch.Text.Blank
import DocSearch.Text.Case
import DocSearch.Text.Case.Table
import DocSearch.Text.Cut
import DocSearch.Text.Digit
import DocSearch.Text.Printable
import DocSearch.Text.Quoted
import DocSearch.Text.Ranges
import DocSearch.Value.Access
import DocSearch.Value.Arguments
import DocSearch.Value.Basic
import DocSearch.Value.Display
import DocSearch.Value.Equal
import DocSearch.Value.Frozen
import DocSearch.Value.Iterable
