import Vitals.Binary.Bits
import Vitals.Binary.Literal
import Vitals.Binary.Shortest
import Vitals.Duration
import Vitals.FileSystem.Disk
import Vitals.FileSystem.Scenario
import Vitals.FileSystem.Tree
import Vitals.Http.Api
import Vitals.Http.Router
import Vitals.Http.Session
import Vitals.Json.Fault
import Vitals.Json.Number
import Vitals.Json.Record
import Vitals.Json.Text
import Vitals.Main
import Vitals.Path
import Vitals.Proc.Entry
import Vitals.Proc.Error
import Vitals.Proofs.Binary.Rounding
import Vitals.Proofs.Binary.Shortest
import Vitals.Proofs.FileSystem.Disk
import Vitals.Proofs.FileSystem.History
import Vitals.Proofs.FileSystem.Mirror
import Vitals.Proofs.FileSystem.Paths
import Vitals.Proofs.FileSystem.Tree
import Vitals.Proofs.Http.Answers
import Vitals.Proofs.Http.Bodies
import Vitals.Proofs.Http.Dispatch
import Vitals.Proofs.Http.KeepAlive
import Vitals.Proofs.Http.Numbers
import Vitals.Proofs.Http.Query
import Vitals.Proofs.Http.Retarget
import Vitals.Proofs.Http.RouteKey
import Vitals.Proofs.Http.Session
import Vitals.Proofs.Http.Target
import Vitals.Proofs.Json.Grammar
import Vitals.Proofs.Json.Members
import Vitals.Proofs.Json.Number
import Vitals.Proofs.Json.Record
import Vitals.Proofs.Json.Rows
import Vitals.Proofs.Json.Scalar
import Vitals.Proofs.Json.Text
import Vitals.Proofs.Json.Value
import Vitals.Proofs.Proc.Block
import Vitals.Proofs.Proc.Command
import Vitals.Proofs.Proc.Discovery
import Vitals.Proofs.Proc.Fields
import Vitals.Proofs.Proc.Groups
import Vitals.Proofs.Proc.Removal
import Vitals.Proofs.Proc.Rows
import Vitals.Proofs.Proc.Schedule
import Vitals.Proofs.Proc.Table
import Vitals.Proofs.Proc.Teardown
import Vitals.Proofs.Rate.Arithmetic
import Vitals.Proofs.Rate.Formulas
import Vitals.Proofs.Snapshot.Breakdown
import Vitals.Proofs.Snapshot.RoundTrip
import Vitals.Proofs.Store.Listing
import Vitals.Proofs.Store.Order
import Vitals.Proofs.Store.Runs
import Vitals.Proofs.Sweep.Account
import Vitals.Proofs.Sweep.Baseline
import Vitals.Proofs.Sweep.Carryover
import Vitals.Proofs.Sweep.Coherence
import Vitals.Proofs.Sweep.Counts
import Vitals.Proofs.Sweep.Likeness
import Vitals.Proofs.Sweep.Order
import Vitals.Proofs.Sweep.Percentages
import Vitals.Proofs.Sweep.Periodic
import Vitals.Proofs.Sweep.Reachable
import Vitals.Proofs.Sweep.Readers
import Vitals.Proofs.Text.Lowercase
import Vitals.Proofs.Text.Numeral
import Vitals.Proofs.Text.Words
import Vitals.Proofs.WriteDeadline.Stalls
import Vitals.Proofs.WriteDeadline.Writes
import Vitals.Rate
import Vitals.Snapshot
import Vitals.Snapshot.Codec
import Vitals.Sweep.Periodic
import Vitals.Text.Blank
import Vitals.Text.Lowercase
import Vitals.Text.Quoted
import Vitals.WriteDeadline
