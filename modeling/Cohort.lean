import Cohort.ChangeSet
import Cohort.CommandLine.Arguments
import Cohort.CommandLine.Help
import Cohort.CommandLine.Session
import Cohort.Contact
import Cohort.Contact.Attributes
import Cohort.Contact.Document
import Cohort.Criteria
import Cohort.Criteria.Document
import Cohort.Criteria.Draft
import Cohort.Criteria.Matching
import Cohort.Double.Basic
import Cohort.Double.Layout
import Cohort.Double.Reading
import Cohort.Double.Shortest
import Cohort.Failure
import Cohort.Fault
import Cohort.Group
import Cohort.Group.Document
import Cohort.IdSet
import Cohort.Json.Number
import Cohort.Json.Printer
import Cohort.Json.Quoted
import Cohort.Json.Record
import Cohort.Json.Token
import Cohort.Json.Tree
import Cohort.Json.Value
import Cohort.Lexicographic
import Cohort.Main
import Cohort.Pass
import Cohort.Program
import Cohort.Proofs.Alternatives
import Cohort.Proofs.Attempts
import Cohort.Proofs.AttributeKeys
import Cohort.Proofs.Attributes
import Cohort.Proofs.BareScalars
import Cohort.Proofs.Commits
import Cohort.Proofs.Commuting
import Cohort.Proofs.Complements
import Cohort.Proofs.Conversation
import Cohort.Proofs.Counts
import Cohort.Proofs.Criteria.Documents
import Cohort.Proofs.Criteria.Grammar
import Cohort.Proofs.Criteria.RoundTrip
import Cohort.Proofs.Criteria.Slots
import Cohort.Proofs.Drafts
import Cohort.Proofs.Exchange
import Cohort.Proofs.Failing
import Cohort.Proofs.Filing
import Cohort.Proofs.History
import Cohort.Proofs.Interleaving
import Cohort.Proofs.Json.Blank
import Cohort.Proofs.Json.Compact
import Cohort.Proofs.Json.Enclosed
import Cohort.Proofs.Json.Members
import Cohort.Proofs.Json.Quoted
import Cohort.Proofs.Json.Records
import Cohort.Proofs.Matching
import Cohort.Proofs.Parts
import Cohort.Proofs.PassTrace
import Cohort.Proofs.PassUnderWay
import Cohort.Proofs.Passes
import Cohort.Proofs.Plan
import Cohort.Proofs.Planned
import Cohort.Proofs.Ranked
import Cohort.Proofs.Reading
import Cohort.Proofs.Recasing
import Cohort.Proofs.Reconciled
import Cohort.Proofs.Repetition
import Cohort.Proofs.Rounds
import Cohort.Proofs.SeedOrder
import Cohort.Proofs.Seeds
import Cohort.Proofs.Sessions
import Cohort.Proofs.Settings.Agreement
import Cohort.Proofs.Settings.SeedPath
import Cohort.Proofs.Settings.Variables
import Cohort.Proofs.SharedWork
import Cohort.Proofs.SingleRows
import Cohort.Proofs.Snapshot
import Cohort.Proofs.Store.Admissible
import Cohort.Proofs.Store.Filed
import Cohort.Proofs.Store.Listings
import Cohort.Proofs.Store.Reachable
import Cohort.Proofs.Store.Rows
import Cohort.Proofs.Store.Tags
import Cohort.Proofs.StoredSegment
import Cohort.Proofs.Tagging
import Cohort.Proofs.Tenants
import Cohort.Proofs.Text.Casing
import Cohort.Proofs.Text.Items
import Cohort.Proofs.Text.Lowering
import Cohort.Proofs.Text.Numerals
import Cohort.Proofs.Ties
import Cohort.Proofs.Time.Text
import Cohort.Proofs.Undisturbed
import Cohort.Proofs.Waits
import Cohort.Rule.Comparison
import Cohort.Rule.Field
import Cohort.Rule.View
import Cohort.Schedule
import Cohort.Seed
import Cohort.Segment
import Cohort.Settings
import Cohort.Settings.Document
import Cohort.Settings.Environment
import Cohort.Sorting
import Cohort.Store
import Cohort.Store.Commit
import Cohort.Store.Queries
import Cohort.Table
import Cohort.Text.Blank
import Cohort.Text.CaseClass
import Cohort.Text.CaseTable
import Cohort.Text.Lowercase
import Cohort.Text.Numeral
import Cohort.Text.Plain
import Cohort.Text.Search
import Cohort.Text.Styled
import Cohort.Time.Calendar
import Cohort.Time.Instant
import Cohort.Time.Text
