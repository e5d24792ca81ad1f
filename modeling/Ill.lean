import Ill.Base.Fold
import Ill.Base.Transition
import Ill.Base.Fifo
import Ill.Base.Assoc
import Ill.Base.Retry
import Ill.Base.Except
import Ill.Syntax.Diagnostic
import Ill.Syntax.Spans
import Ill.Runtime.Eval
import Ill.Runtime.Assert
import Ill.Runtime.Hex
import Ill.Runtime.Interpolation
import Ill.Runtime.AccessPaths
import Ill.Actor.Descriptor
import Ill.Actor.PgClient
import Ill.Actor.MqttClient
import Ill.Actor.ResultViews
import Ill.Actor.UserProperties
import Ill.Actor.ConnectRetry
import Ill.Actor.Exec
import Ill.Actor.Container
import Ill.Actor.ArgsActor
import Ill.Actor.Registry
import Ill.Actor.Live
import Ill.Validate.Validator
import Ill.Validate.Reported
import Ill.Validate.Accepted
import Ill.Harness.Harness
import Ill.Harness.Verdict
import Ill.Harness.Instances
import Ill.Harness.Declared
import Ill.Harness.Persistence
import Ill.Harness.Window
import Ill.Harness.Lockstep
import Ill.Mqtt.Session
import Ill.Mqtt.Steps
import Ill.Mqtt.Delivery
import Ill.Mqtt.Flush
import Ill.Mqtt.AckWaiters
import Ill.Mqtt.BackPressure
import Ill.Base.Utf8
import Ill.Lower.Normalize
import Ill.Base.Report
import Ill.Lower.Cst
import Ill.Lower.Lower
import Ill.Lower.Rewrite
import Ill.Lower.Located
import Ill.Render
import Ill.Base.Layout
import Ill.Grammar.Scanner
import Ill.Grammar.Balance
import Ill.Grammar.OffSide
import Ill.Harness.Teardown
import Ill.Lower.Total
import Ill.Main
import Ill.Actor.Schema
import Ill.Validate.Independent
import Ill.Validate.Exact
import Ill.Harness.Views
import Ill.Harness.LetTyping
import Ill.Actor.Arguments
import Ill.Harness.Arguments
import Ill.Mqtt.AckRouting
import Ill.Validate.Registration
import Ill.Lower.Canonical
import Ill.Lower.Equations
import Ill.Lower.Escapes
import Ill.Lower.RawLiterals
import Ill.Harness.CommandLine
import Ill.Harness.Squiggles
import Ill.Grammar.Comments
import Ill.Base.Regular
import Ill.Grammar.Rules
import Ill.Lower.Conforms
import Ill.Lower.Denotes
import Ill.Lower.Constructs
import Ill.Lower.Complaints
import Ill.Lower.Recovery
import Ill.CliArgs
import Ill.Harness.Keywords
import Ill.Harness.ProgramLookup
import Ill.ResolveFiles
import Ill.Base.LastSplit
import Ill.Runtime.Indexing
import Ill.Actor.ImageRef
import Ill.Lower.AnnotationText
import Ill.Grammar.Progress
import Ill.Base.CellStack
import Ill.Base.Words
import Ill.Grammar.Memory
import Ill.Grammar.Serialize
import Ill.Base.Interleaving
import Ill.Base.Ledger
import Ill.Base.SideBySide
import Ill.Harness.Inlining
import Ill.Harness.Resources
import Ill.Lower.BlockStructure
import Ill.ReportFormat
import Ill.Runtime.Comparison
import Ill.Validate.Reordered
import Ill.Harness.Relocated
import Ill.Lower.Edited
import Ill.Moved
import Ill.Actor.InMode
import Ill.Harness.Calls
import Ill.Harness.DescriptorMachine
import Ill.Harness.Interleaved
import Ill.Harness.Split
import Ill.Mqtt.Loss
import Ill.Mqtt.Sequential
