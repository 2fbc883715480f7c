import SqlClient.Action
import SqlClient.Calendar
import SqlClient.Casing
import SqlClient.Client
import SqlClient.Connection.Options
import SqlClient.Connection.Settings
import SqlClient.Driver.Basic
import SqlClient.Driver.Exclusive
import SqlClient.Driver.Pooled
import SqlClient.Error
import SqlClient.Json
import SqlClient.Monitor
import SqlClient.Number.Basic
import SqlClient.Number.Decimal
import SqlClient.Numeric
import SqlClient.Proofs.Action
import SqlClient.Proofs.Calendar.Days
import SqlClient.Proofs.Calendar.Texts
import SqlClient.Proofs.Casing.Capitals
import SqlClient.Proofs.Casing.Normal
import SqlClient.Proofs.Casing.RoundTrip
import SqlClient.Proofs.Casing.Words
import SqlClient.Proofs.Client.Brackets
import SqlClient.Proofs.Client.Calls
import SqlClient.Proofs.Client.Columns
import SqlClient.Proofs.Client.Inquiries
import SqlClient.Proofs.Client.Lookups
import SqlClient.Proofs.Client.Registrations
import SqlClient.Proofs.Client.Sessions
import SqlClient.Proofs.Client.Texts
import SqlClient.Proofs.Connection.Percent
import SqlClient.Proofs.Connection.Urls
import SqlClient.Proofs.Driver.Availability
import SqlClient.Proofs.Driver.Ownership
import SqlClient.Proofs.Driver.Requests
import SqlClient.Proofs.Driver.Runs
import SqlClient.Proofs.Driver.Silence
import SqlClient.Proofs.Json.Documents
import SqlClient.Proofs.Json.Floats
import SqlClient.Proofs.Json.Members
import SqlClient.Proofs.Json.Printable
import SqlClient.Proofs.Monitor.Heard
import SqlClient.Proofs.Monitor.Shortened
import SqlClient.Proofs.Number.Digits
import SqlClient.Proofs.Number.Rounding
import SqlClient.Proofs.Numeric.Canonical
import SqlClient.Proofs.Numeric.Decimals
import SqlClient.Proofs.Numeric.Groups
import SqlClient.Proofs.Numeric.Positional
import SqlClient.Proofs.Numeric.Texts
import SqlClient.Proofs.Numeric.WireForm
import SqlClient.Proofs.Sql.Builders
import SqlClient.Proofs.Sql.Identifiers
import SqlClient.Proofs.Sql.Inserts
import SqlClient.Proofs.Sql.Marks
import SqlClient.Proofs.Sql.Names
import SqlClient.Proofs.Sql.Placeholders
import SqlClient.Proofs.Sql.Splices
import SqlClient.Proofs.Sql.Tuples
import SqlClient.Proofs.Text.Projection
import SqlClient.Proofs.Text.Settled
import SqlClient.Proofs.Transaction.Commits
import SqlClient.Proofs.Transaction.Discards
import SqlClient.Proofs.Transaction.Journal
import SqlClient.Proofs.Transaction.Ledger
import SqlClient.Proofs.Transaction.Programs
import SqlClient.Proofs.Transaction.Scopes
import SqlClient.Proofs.Transaction.Shallowest
import SqlClient.Proofs.Value.Bindings
import SqlClient.Proofs.Value.Documents
import SqlClient.Proofs.Value.Equality
import SqlClient.Proofs.Value.Histories
import SqlClient.Proofs.Value.Named
import SqlClient.Proofs.Value.Records
import SqlClient.Proofs.Value.Renderings
import SqlClient.Proofs.Wire.Accepted
import SqlClient.Proofs.Wire.Arrays
import SqlClient.Proofs.Wire.Displayed
import SqlClient.Proofs.Wire.Integers
import SqlClient.Proofs.Wire.RoundTrip
import SqlClient.Proofs.Wire.Rows
import SqlClient.Proofs.Wire.Writers
import SqlClient.Server
import SqlClient.Session
import SqlClient.Sql.Fragment
import SqlClient.Sql.Insert
import SqlClient.Text.Basic
import SqlClient.Text.Letters
import SqlClient.Text.Quoted
import SqlClient.Value.Basic
import SqlClient.Value.Json
import SqlClient.Wire.Basic
import SqlClient.Wire.Decode
import SqlClient.Wire.Encode
