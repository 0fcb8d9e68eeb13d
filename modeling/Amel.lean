import Amel.Library.Transition
import Amel.Library.KeyedTable
import Amel.Library.Fleet
import Amel.Python.Codec
import Amel.Common.Events
import Amel.Common.Schema
import Amel.Db.Models
import Amel.Python.Json
import Amel.Ingestor.Validate
import Amel.Ingestor.Batch
import Amel.Ingestor.Consumer
import Amel.Ingestor.Coverage
import Amel.Ingestor.Persisted
import Amel.Ingestor.DeadLetter
import Amel.Ingestor.PoisonPill
import Amel.Ingestor.Accounting
import Amel.Ingestor.Timestamps
import Amel.Library.Windows
import Amel.Library.Transaction
import Amel.Backfill.Materialize
import Amel.Python.Format
import Amel.Ingestor.Readiness
import Amel.Ingestor.Stall
import Amel.Lake.Keys
import Amel.Lake.Watermark
import Amel.Lake.Validation
import Amel.Lake.Schema
import Amel.Pipeline.Tasks
import Amel.Pipeline.Dag
import Amel.Pipeline.Run
import Amel.Pipeline.Alone
import Amel.Pipeline.WatermarkInvariant
import Amel.Pipeline.Fidelity
import Amel.Pipeline.ChangeCapture
import Amel.Pipeline.Rerun
import Amel.Pipeline.MaterializeWindows
import Amel.Pipeline.CuratedUpdate
import Amel.Ingestor.Parameters
import Amel.Pipeline.Online
import Amel.Pipeline.Gold
import Amel.Pipeline.Provenance
import Amel.Pipeline.SchemaGate
import Amel.Simulator.Payload
import Amel.Simulator.Runner
import Amel.Simulator.Platform
import Amel.Simulator.Pairing
import Amel.Simulator.Loop
import Amel.Simulator.Stall
import Amel.Simulator.Probes
import Amel.Simulator.Dataset
import Amel.Simulator.DelayQueue
import Amel.Simulator.Malformed
import Amel.Simulator.Wire
import Amel.Pipeline.TrainingRecords
import Amel.Library.Program
import Amel.Library.Threads
import Amel.Library.Session
import Amel.Library.Newest
import Amel.Library.Job
import Amel.Python.Double
import Amel.Python.Literal
import Amel.Python.Numeral
import Amel.Python.Repr
import Amel.Python.Escape
import Amel.Python.Dumps
import Amel.Python.Sendable
import Amel.Python.Calendar
import Amel.Python.Heap
import Amel.Python.Heapq
import Amel.Library.Assoc
import Amel.Training.Config
import Amel.Training.Promote
import Amel.Training.Registry
import Amel.Training.Audit
import Amel.Training.Gate
import Amel.Training.Decision
import Amel.Training.Dataset
import Amel.Training.AsOf
import Amel.Library.Sorting
import Amel.Training.Fingerprint
import Amel.Training.Run
import Amel.Training.Steps
import Amel.Training.Agreement
import Amel.Ingestor.Storable
import Amel.Inference.Service
import Amel.Inference.Server
import Amel.Inference.OneModel
import Amel.Inference.OnlineFeatures
import Amel.Inference.PersistFirst
import Amel.Scripts.Machine
import Amel.Scripts.Modes
import Amel.Scripts.Harmless
import Amel.Scripts.KubeflowCap
import Amel.Scripts.Exclusivity
import Amel.Inference.Refresh
import Amel.Inference.ServedLabel
import Amel.Training.Split
import Amel.Pipeline.RunRecord
import Amel.Simulator.Restart
import Amel.Python.Path
import Amel.Pipeline.Separation
import Amel.Ingestor.Recovery
import Amel.Pipeline.Handover
import Amel.Lab.Lineage
import Amel.Library.Embedding
import Amel.Library.Guarantee
import Amel.Inference.Api
import Amel.Inference.RefreshOrder
import Amel.Inference.Access
import Amel.Inference.Answers
import Amel.Inference.Probes
import Amel.Training.Containers
import Amel.Lab.Rollout
