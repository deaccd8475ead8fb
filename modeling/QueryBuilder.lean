import QueryBuilder.Calendar
import QueryBuilder.Client
import QueryBuilder.Condition
import QueryBuilder.Connection.Address
import QueryBuilder.Connection.Keywords
import QueryBuilder.Connection.Setting
import QueryBuilder.Connection.Url
import QueryBuilder.Draft
import QueryBuilder.Draft.Cursor
import QueryBuilder.DriverError
import QueryBuilder.DriverValue
import QueryBuilder.Duration
import QueryBuilder.Error
import QueryBuilder.Fragment
import QueryBuilder.Fragment.Call
import QueryBuilder.Ident
import QueryBuilder.Json
import QueryBuilder.Json.Printer
import QueryBuilder.Json.Reader
import QueryBuilder.Monitor.Client
import QueryBuilder.Monitor.Config
import QueryBuilder.Monitor.Event
import QueryBuilder.Monitor.Kind
import QueryBuilder.Monitor.Stats
import QueryBuilder.Number.Double
import QueryBuilder.Number.Shortest
import QueryBuilder.Numbering
import QueryBuilder.Pool
import QueryBuilder.Prepared
import QueryBuilder.Query.Change
import QueryBuilder.Query.Size
import QueryBuilder.Query.Statement
import QueryBuilder.Row
import QueryBuilder.ScriptedServer
import QueryBuilder.Statement
import QueryBuilder.Text.Blank
import QueryBuilder.Text.Clip
import QueryBuilder.Text.Hex
import QueryBuilder.Text.Noise
import QueryBuilder.Text.Split
import QueryBuilder.Transaction
import QueryBuilder.Uuid
import QueryBuilder.Value
import QueryBuilder.Value.Equality
import QueryBuilder.Value.Serial
import QueryBuilder.Value.Wire
import QueryBuilder.Proofs.TreeShapes
import QueryBuilder.Proofs.Alike
import QueryBuilder.Proofs.ValueIndependence
import QueryBuilder.Proofs.Expansion
import QueryBuilder.Proofs.Identifiers
import QueryBuilder.Proofs.IdentifierText
import QueryBuilder.Proofs.Session
import QueryBuilder.Proofs.Seams
import QueryBuilder.Proofs.NumberingFaults
import QueryBuilder.Proofs.Balance
import QueryBuilder.Proofs.Refusals
import QueryBuilder.Proofs.LiteralText
import QueryBuilder.Proofs.Bindings
import QueryBuilder.Proofs.ParameterOrder
import QueryBuilder.Proofs.Lexemes
import QueryBuilder.Proofs.Reading
import QueryBuilder.Proofs.Parenthesization
import QueryBuilder.Proofs.Registry
import QueryBuilder.Proofs.Focus
import QueryBuilder.Proofs.Shares
import QueryBuilder.Proofs.Splices
import QueryBuilder.Proofs.AllFragments
import QueryBuilder.Proofs.ParameterShares
import QueryBuilder.Proofs.CommonTables
import QueryBuilder.Proofs.StatementKinds
import QueryBuilder.Proofs.Inlining
import QueryBuilder.Proofs.FailedSteps
import QueryBuilder.Proofs.StatementRuns
import QueryBuilder.Proofs.Aspects
import QueryBuilder.Proofs.Independence
import QueryBuilder.Proofs.Contents
import QueryBuilder.Proofs.Comparison
import QueryBuilder.Proofs.Sameness
import QueryBuilder.Proofs.EqualQueries
import QueryBuilder.Proofs.Monitoring
import QueryBuilder.Proofs.Statistics
import QueryBuilder.Proofs.Bindable
import QueryBuilder.Proofs.PlaceholderNumbers
import QueryBuilder.Proofs.Names
import QueryBuilder.Proofs.CompileFaults
import QueryBuilder.Proofs.MarkerAgreement
import QueryBuilder.Proofs.DataRows
import QueryBuilder.Proofs.InsertedRows
import QueryBuilder.Proofs.DataMerging
import QueryBuilder.Proofs.Regrouping
import QueryBuilder.Proofs.WhereClause
import QueryBuilder.Proofs.Blankness
import QueryBuilder.Proofs.Scopes
import QueryBuilder.Proofs.MonitorStacks
import QueryBuilder.Proofs.LeafCounts
import QueryBuilder.Proofs.TreePrograms
import QueryBuilder.Proofs.EscapedText
import QueryBuilder.Proofs.LeadingNoise
import QueryBuilder.Proofs.Clipping
import QueryBuilder.Proofs.IntegerBytes
import QueryBuilder.Proofs.NoiseExtent
import QueryBuilder.Proofs.ParenthesisPairs
import QueryBuilder.Proofs.ExistenceTests
