import CqlDdl.Binary64
import CqlDdl.Binary64.Decimal
import CqlDdl.Binary64.Reading
import CqlDdl.Column
import CqlDdl.Column.Datum
import CqlDdl.Column.Draft
import CqlDdl.Configuration
import CqlDdl.Configuration.Actions
import CqlDdl.Configuration.Issue
import CqlDdl.Configuration.Reading
import CqlDdl.DataType
import CqlDdl.Datum
import CqlDdl.Datum.Json
import CqlDdl.Entries
import CqlDdl.Error
import CqlDdl.Execution
import CqlDdl.Guard
import CqlDdl.Identifier
import CqlDdl.Identifier.Reading
import CqlDdl.Index
import CqlDdl.Index.Draft
import CqlDdl.Keyspace
import CqlDdl.Keyspace.Draft
import CqlDdl.Keyword
import CqlDdl.Log
import CqlDdl.Log.Pattern
import CqlDdl.Log.Template
import CqlDdl.Options.Catalogue
import CqlDdl.Options.Edit
import CqlDdl.Options.Key
import CqlDdl.Options.Map
import CqlDdl.Options.Replication
import CqlDdl.Options.Value
import CqlDdl.Options.ValueType
import CqlDdl.Outcome
import CqlDdl.Proofs.AlterationText
import CqlDdl.Proofs.Assignments
import CqlDdl.Proofs.BareWords
import CqlDdl.Proofs.Characters
import CqlDdl.Proofs.Comments
import CqlDdl.Proofs.ConfigurationData
import CqlDdl.Proofs.ConfigurationFaults
import CqlDdl.Proofs.ConfigurationReading
import CqlDdl.Proofs.DigitOrder
import CqlDdl.Proofs.DistinctNames
import CqlDdl.Proofs.ExecutionPrefix
import CqlDdl.Proofs.IndexRequests
import CqlDdl.Proofs.IndexText
import CqlDdl.Proofs.IndexWords
import CqlDdl.Proofs.KeyspaceActions
import CqlDdl.Proofs.KeyspaceDefaults
import CqlDdl.Proofs.LegalNames
import CqlDdl.Proofs.LiteralReading
import CqlDdl.Proofs.MinimalParts
import CqlDdl.Proofs.NamedEntries
import CqlDdl.Proofs.NestedMapText
import CqlDdl.Proofs.OptionHistory
import CqlDdl.Proofs.OptionMap
import CqlDdl.Proofs.OptionRequests
import CqlDdl.Proofs.Quotation
import CqlDdl.Proofs.RenameRuns
import CqlDdl.Proofs.RenderFailure
import CqlDdl.Proofs.ReplicationMap
import CqlDdl.Proofs.Runs
import CqlDdl.Proofs.ScriptContent
import CqlDdl.Proofs.ScriptFileNames
import CqlDdl.Proofs.Separation
import CqlDdl.Proofs.SingleStatement
import CqlDdl.Proofs.StatementText
import CqlDdl.Proofs.TableText
import CqlDdl.Proofs.TypeText
import CqlDdl.Proofs.ValueText
import CqlDdl.Proofs.WholeNumbers
import CqlDdl.Proofs.Words
import CqlDdl.Proofs.WrittenNames
import CqlDdl.Script
import CqlDdl.Statement
import CqlDdl.Statement.Draft
import CqlDdl.Table
import CqlDdl.Table.Draft
import CqlDdl.Text
import CqlDdl.Text.Grammar
import CqlDdl.Text.Parts
import CqlDdl.Text.Quoted
import CqlDdl.Text.Shown
import CqlDdl.Text.Spelling
import CqlDdl.UserType
import CqlDdl.UserType.Draft
