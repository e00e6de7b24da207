import TableAccess.Filter.Document
import TableAccess.Json.Reader
import TableAccess.Mutation.BulkUpdate
import TableAccess.Mutation.Tracker
import TableAccess.Proofs.Attempt
import TableAccess.Proofs.Filter.Document
import TableAccess.Proofs.Filter.Key
import TableAccess.Proofs.Filter.Lists
import TableAccess.Proofs.Filter.Meaning
import TableAccess.Proofs.Filter.Operands
import TableAccess.Proofs.Filter.Parallel
import TableAccess.Proofs.Filter.Rearrangement
import TableAccess.Proofs.Filter.Splitting
import TableAccess.Proofs.Filter.WellFormed
import TableAccess.Proofs.Instant.Micros
import TableAccess.Proofs.Machine.Laws
import TableAccess.Proofs.Machine.Rows
import TableAccess.Proofs.Mutation.Compilation
import TableAccess.Proofs.Mutation.Guard
import TableAccess.Proofs.Mutation.Insert
import TableAccess.Proofs.Mutation.Names
import TableAccess.Proofs.Mutation.Parallel
import TableAccess.Proofs.Mutation.Partition
import TableAccess.Proofs.Mutation.Pieces
import TableAccess.Proofs.Mutation.Placeholders
import TableAccess.Proofs.Mutation.RowUpdate
import TableAccess.Proofs.Mutation.Tracker
import TableAccess.Proofs.NameMap
import TableAccess.Proofs.Names
import TableAccess.Proofs.Number.Rounding
import TableAccess.Proofs.Outcome
import TableAccess.Proofs.Pairs
import TableAccess.Proofs.Parallel
import TableAccess.Proofs.Placeholders
import TableAccess.Proofs.Predicate.Compilation
import TableAccess.Proofs.Predicate.Folding
import TableAccess.Proofs.Predicate.Groups
import TableAccess.Proofs.Predicate.Names
import TableAccess.Proofs.Predicate.NormalForm
import TableAccess.Proofs.Predicate.Parallel
import TableAccess.Proofs.Predicate.Placeholders
import TableAccess.Proofs.Predicate.Readability
import TableAccess.Proofs.Query.Compilation
import TableAccess.Proofs.Query.Grounded
import TableAccess.Proofs.Query.Names
import TableAccess.Proofs.Query.Paging
import TableAccess.Proofs.Query.Parallel
import TableAccess.Proofs.Query.Placeholders
import TableAccess.Proofs.Query.ShownColumns
import TableAccess.Proofs.Query.Valid
import TableAccess.Proofs.Rejection
import TableAccess.Proofs.Row
import TableAccess.Proofs.Schema.Catalog
import TableAccess.Proofs.Schema.Snapshot
import TableAccess.Proofs.Session.Acquisition
import TableAccess.Proofs.Session.Agreement
import TableAccess.Proofs.Session.Borrowing
import TableAccess.Proofs.Session.Bracket
import TableAccess.Proofs.Session.BulkUpdate
import TableAccess.Proofs.Session.Chunk
import TableAccess.Proofs.Session.Engines
import TableAccess.Proofs.Session.InTime
import TableAccess.Proofs.Session.Indistinct
import TableAccess.Proofs.Session.Insertion
import TableAccess.Proofs.Session.Joining
import TableAccess.Proofs.Session.Lending
import TableAccess.Proofs.Session.Progress
import TableAccess.Proofs.Session.Regular
import TableAccess.Proofs.Session.Rejection
import TableAccess.Proofs.Session.Requests
import TableAccess.Proofs.Session.Retry
import TableAccess.Proofs.Session.RowUpdate
import TableAccess.Proofs.Session.Scope
import TableAccess.Proofs.Session.Timeouts
import TableAccess.Proofs.Session.Tracking
import TableAccess.Proofs.Session.Traffic
import TableAccess.Proofs.Session.Waiting
import TableAccess.Proofs.Session.Work
import TableAccess.Proofs.Sql.Filling
import TableAccess.Proofs.Sql.Parallel
import TableAccess.Proofs.Sql.Parentheses
import TableAccess.Proofs.Sql.Reading
import TableAccess.Proofs.Sql.Scanning
import TableAccess.Proofs.Sql.Wholeness
import TableAccess.Proofs.Store.Alike
import TableAccess.Proofs.Store.AlikeStatements
import TableAccess.Proofs.Store.CellOrder
import TableAccess.Proofs.Store.Changes
import TableAccess.Proofs.Store.Contention
import TableAccess.Proofs.Store.Discovery
import TableAccess.Proofs.Store.Effects
import TableAccess.Proofs.Store.Insertion
import TableAccess.Proofs.Store.LastWriter
import TableAccess.Proofs.Store.Laws
import TableAccess.Proofs.Store.Limit
import TableAccess.Proofs.Store.Listing
import TableAccess.Proofs.Store.Matching
import TableAccess.Proofs.Store.NewRow
import TableAccess.Proofs.Store.Paging
import TableAccess.Proofs.Store.Partners
import TableAccess.Proofs.Store.Preparing
import TableAccess.Proofs.Store.Reading
import TableAccess.Proofs.Store.Regular
import TableAccess.Proofs.Store.RowByRow
import TableAccess.Proofs.Store.RowUpdate
import TableAccess.Proofs.Store.Rows
import TableAccess.Proofs.Store.Statement
import TableAccess.Proofs.Store.Tables
import TableAccess.Proofs.Store.WholeRows
import TableAccess.Proofs.Store.Within
import TableAccess.Proofs.Store.Writing
import TableAccess.Proofs.Text.Bytes
import TableAccess.Proofs.Truth
import TableAccess.Proofs.Value.Scalars
import TableAccess.Proofs.Value.Trips
import TableAccess.Query.Written
import TableAccess.Row
import TableAccess.Schema.Catalog
import TableAccess.Session.Loan
import TableAccess.Settings
import TableAccess.Store.Statement
import TableAccess.Value.Document
import TableAccess.Value.Reading
