import RecordCache.Argument
import RecordCache.Argument.Reader
import RecordCache.Assoc
import RecordCache.Client
import RecordCache.Client.Account
import RecordCache.Client.Fetching
import RecordCache.Client.Search
import RecordCache.Client.Session
import RecordCache.Client.Setup
import RecordCache.Client.Writing
import RecordCache.Constraint
import RecordCache.Constraint.Clauses
import RecordCache.Constraint.Display
import RecordCache.Constraint.Match
import RecordCache.Constraint.Reader
import RecordCache.Constraint.Resolve
import RecordCache.Constraint.Where
import RecordCache.Date
import RecordCache.Date.Calendar
import RecordCache.Date.Reader
import RecordCache.Disk
import RecordCache.Disk.Path
import RecordCache.Error
import RecordCache.Fetch.Queue
import RecordCache.Fetch.Timer
import RecordCache.Json
import RecordCache.Json.Reader
import RecordCache.Json.Writer
import RecordCache.LocalStore
import RecordCache.LocalStore.Population
import RecordCache.Number
import RecordCache.Number.Binary
import RecordCache.Number.Decimal
import RecordCache.Operation
import RecordCache.Operation.Batch
import RecordCache.Pattern
import RecordCache.Pattern.Matcher
import RecordCache.Pattern.Parser
import RecordCache.Pattern.Syntax
import RecordCache.Proofs.Assoc
import RecordCache.Proofs.Client.Accounts
import RecordCache.Proofs.Client.BrokenDisk
import RecordCache.Proofs.Client.Coalescing
import RecordCache.Proofs.Client.Creating
import RecordCache.Proofs.Client.CurrentUser
import RecordCache.Proofs.Client.Debounce
import RecordCache.Proofs.Client.Deliveries
import RecordCache.Proofs.Client.Fallback
import RecordCache.Proofs.Client.Fetched
import RecordCache.Proofs.Client.Footprint
import RecordCache.Proofs.Client.History
import RecordCache.Proofs.Client.Lifetime
import RecordCache.Proofs.Client.NetworkPages
import RecordCache.Proofs.Client.Options
import RecordCache.Proofs.Client.OwnWrites
import RecordCache.Proofs.Client.Paging
import RecordCache.Proofs.Client.Passwords
import RecordCache.Proofs.Client.Populate
import RecordCache.Proofs.Client.Raising
import RecordCache.Proofs.Client.Reachable
import RecordCache.Proofs.Client.Reads
import RecordCache.Proofs.Client.Registry
import RecordCache.Proofs.Client.Renewal
import RecordCache.Proofs.Client.Route
import RecordCache.Proofs.Client.Runs
import RecordCache.Proofs.Client.SameCache
import RecordCache.Proofs.Client.Staged
import RecordCache.Proofs.Client.SubQueries
import RecordCache.Proofs.Client.Traffic
import RecordCache.Proofs.Client.Turns
import RecordCache.Proofs.Client.Updates
import RecordCache.Proofs.Client.Windows
import RecordCache.Proofs.Client.Writes
import RecordCache.Proofs.Constraint.Arguments
import RecordCache.Proofs.Constraint.Compose
import RecordCache.Proofs.Constraint.Condition
import RecordCache.Proofs.Constraint.Failures
import RecordCache.Proofs.Constraint.Interchange
import RecordCache.Proofs.Constraint.Kept
import RecordCache.Proofs.Constraint.Layout
import RecordCache.Proofs.Constraint.Local
import RecordCache.Proofs.Constraint.Membership
import RecordCache.Proofs.Constraint.Reading
import RecordCache.Proofs.Constraint.Resolved
import RecordCache.Proofs.Constraint.Retention
import RecordCache.Proofs.Constraint.Satisfies
import RecordCache.Proofs.Constraint.Shows
import RecordCache.Proofs.Date.Calendar
import RecordCache.Proofs.Date.Iso
import RecordCache.Proofs.Date.Written
import RecordCache.Proofs.Disk.Access
import RecordCache.Proofs.Disk.Refill
import RecordCache.Proofs.Except
import RecordCache.Proofs.Fetch.Batch
import RecordCache.Proofs.Json.Equality
import RecordCache.Proofs.Json.ReadBack
import RecordCache.Proofs.Json.Readable
import RecordCache.Proofs.Json.Strings
import RecordCache.Proofs.Keyed
import RecordCache.Proofs.LocalStore.Alike
import RecordCache.Proofs.LocalStore.AnyDisk
import RecordCache.Proofs.LocalStore.Blobs
import RecordCache.Proofs.LocalStore.Changes
import RecordCache.Proofs.LocalStore.Entries
import RecordCache.Proofs.LocalStore.Faults
import RecordCache.Proofs.LocalStore.InFlight
import RecordCache.Proofs.LocalStore.Ledger
import RecordCache.Proofs.LocalStore.Snapshot
import RecordCache.Proofs.LocalStore.Tidy
import RecordCache.Proofs.LocalStore.Turns
import RecordCache.Proofs.LocalStore.Usable
import RecordCache.Proofs.Operation.Body
import RecordCache.Proofs.Operation.Lists
import RecordCache.Proofs.Pattern.Options
import RecordCache.Proofs.Pattern.Recompile
import RecordCache.Proofs.Population.Calls
import RecordCache.Proofs.Population.Flights
import RecordCache.Proofs.Query.Names
import RecordCache.Proofs.Query.Pages
import RecordCache.Proofs.Query.Sorting
import RecordCache.Proofs.Query.Wire
import RecordCache.Proofs.Relation.Answers
import RecordCache.Proofs.Relation.Directions
import RecordCache.Proofs.Relation.Failure
import RecordCache.Proofs.Relation.Forgetting
import RecordCache.Proofs.Relation.Keys
import RecordCache.Proofs.Relation.Links
import RecordCache.Proofs.Relation.Loads
import RecordCache.Proofs.Relation.Lookups
import RecordCache.Proofs.Relation.Memo
import RecordCache.Proofs.Relation.OrderedSet
import RecordCache.Proofs.Relation.Overlap
import RecordCache.Proofs.Relation.Sent
import RecordCache.Proofs.Runs
import RecordCache.Proofs.Text.Base64
import RecordCache.Proofs.Text.Pieces
import RecordCache.Proofs.Value.Codec
import RecordCache.Proofs.Value.Documents
import RecordCache.Proofs.Value.Equality
import RecordCache.Proofs.Value.Order
import RecordCache.Proofs.Value.Permissions
import RecordCache.Proofs.Value.RoundTrip
import RecordCache.Proofs.Value.Sorting
import RecordCache.Proofs.Value.StableSort
import RecordCache.Query
import RecordCache.Query.Order
import RecordCache.Query.Paging
import RecordCache.Query.Selection
import RecordCache.Record
import RecordCache.Registry
import RecordCache.Relation
import RecordCache.Relation.Memo
import RecordCache.Scalar
import RecordCache.Schema
import RecordCache.Schema.Reader
import RecordCache.Server.ErrorCode
import RecordCache.Settings
import RecordCache.Settings.Router
import RecordCache.Text.Base64
import RecordCache.Text.Capital
import RecordCache.Text.CharClass
import RecordCache.Text.Encoding
import RecordCache.Text.Hex
import RecordCache.Text.Quoted
import RecordCache.Text.Table.Lowering
import RecordCache.Text.Table.NameMark
import RecordCache.Text.Table.Nameless
import RecordCache.Text.Table.Raising
import RecordCache.Text.Table.Unprintable
import RecordCache.Text.Table.Word
import RecordCache.Text.Utf8
import RecordCache.Transport
import RecordCache.Value
import RecordCache.Value.Acl
import RecordCache.Value.Order
