import Dbgen4.Lts
import Dbgen4.Handoff
import Dbgen4.Numeral
import Dbgen4.Rtl.SqlTypes
import Dbgen4.Rtl.Column
import Dbgen4.Rtl.Buffer
import Dbgen4.Rtl.Fmt
import Dbgen4.Rtl.ParamBuffer
import Dbgen4.Async.Snapshot
import Dbgen4.Async.Basic
import Dbgen4.Async.Step
import Dbgen4.Async.Schedule
import Dbgen4.Async.Queue
import Dbgen4.Async.Buffers
import Dbgen4.Async.Calls
import Dbgen4.Async.Life
import Dbgen4.Async.Progress
import Dbgen4.Async.Delivery
import Dbgen4.Async.Errors
import Dbgen4.Async.Sticky
import Dbgen4.Async.Accept
import Dbgen4.Async.Finish
import Dbgen4.Async.Commit
import Dbgen4.Psql.Text
import Dbgen4.Psql.Codec
import Dbgen4.Psql.Query
import Dbgen4.Psql.Fetch
import Dbgen4.Psql.Connection
import Dbgen4.Psql.Block
import Dbgen4.Psql.Backend
import Dbgen4.Psql.Durability
import Dbgen4.Async.Unresolved
import Dbgen4.Async.Prepare
import Dbgen4.Async.Cancel
import Dbgen4.Psql.Drain
import Dbgen4.Ownership
import Dbgen4.Psql.Batch
import Dbgen4.Psql.Release
import Dbgen4.Rtl.Storage
import Dbgen4.Db2.Query
import Dbgen4.Db2.Handle
import Dbgen4.Rtl.Rows
import Dbgen4.Db2.Layout
import Dbgen4.Lifecycle
import Dbgen4.Rtl.SetValue
import Dbgen4.KeyedList
import Dbgen4.Gen.Statement
import Dbgen4.Gen.Parser
import Dbgen4.Psql.Describe
import Dbgen4.Psql.Describer
import Dbgen4.Db2.Connection
import Dbgen4.Gen.UnitOfWork
import Dbgen4.WorkQueue
import Dbgen4.Gen.Common
import Dbgen4.Gen.Yaml
import Dbgen4.Gen.Appl
import Dbgen4.Gen.Schedule
import Dbgen4.Gen.Workers
import Dbgen4.Gen.Outputs
import Dbgen4.CppText
import Dbgen4.Gen.Header
import Dbgen4.Psql.Notify
import Dbgen4.Psql.Ddl
import Dbgen4.Psql.Listen
import Dbgen4.Psql.Answered
import Dbgen4.Psql.Registration
import Dbgen4.Psql.Wiring
import Dbgen4.Psql.Complete
import Dbgen4.Psql.Windows
import Dbgen4.Psql.Binary
import Dbgen4.Psql.Pipeline
import Dbgen4.Psql.Reprepare
import Dbgen4.Async.Restore
import Dbgen4.Async.Sizes
import Dbgen4.Db2.Prepared
import Dbgen4.Connect
import Dbgen4.LastWrite
import Dbgen4.Rtl.Setters
import Dbgen4.Psql.Renderings
import Dbgen4.Psql.Misread
import Dbgen4.Psql.Marshal
import Dbgen4.Db2.Strings
import Dbgen4.Db2.Diagnostics
import Dbgen4.Gen.Failures
import Dbgen4.Gen.WellFormed
import Dbgen4.CppIdentifier
import Dbgen4.Gen.FieldLen
import Dbgen4.Gen.Schema
import Dbgen4.Gen.Lines
import Dbgen4.Gen.YamlError
import Dbgen4.Rtl.Formatters
import Dbgen4.Utf8
import Dbgen4.CondVar
import Dbgen4.Async.WakeUp
import Dbgen4.Async.Serial
import Dbgen4.Async.Reference
import Dbgen4.Async.Refinement
import Dbgen4.Async.Sequential
import Dbgen4.Template.Render
import Dbgen4.Template.Rules
import Dbgen4.Template.Check
import Dbgen4.Gen.Attributes
import Dbgen4.Gen.BufferTemplates
import Dbgen4.Gen.MainTemplates
import Dbgen4.Gen.Callbacks
import Dbgen4.Gen.Types
import Dbgen4.Gen.Total
import Dbgen4.CppScan
import Dbgen4.Template.Code
import Dbgen4.Gen.Balance
