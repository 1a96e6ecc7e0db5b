import NovaRtl.Adapters.Run
import NovaRtl.Adapters.Yosys
import NovaRtl.AnalysisViews.Aggregation
import NovaRtl.Artifacts.Publication
import NovaRtl.Artifacts.Replay
import NovaRtl.Artifacts.Runs
import NovaRtl.Artifacts.Store
import NovaRtl.Benchmark.AsyncFifo
import NovaRtl.Benchmark.Calibrate
import NovaRtl.Benchmark.ClockDivider
import NovaRtl.Benchmark.Power
import NovaRtl.Benchmark.PowerDates
import NovaRtl.Benchmark.PowerLaws
import NovaRtl.Benchmark.ReqAck
import NovaRtl.Constraints.Comparison
import NovaRtl.Contracts.MigrationAccess
import NovaRtl.Contracts.MigrationContent
import NovaRtl.Evidence.ClusterShares
import NovaRtl.Evidence.Connectivity
import NovaRtl.Formal.Coverage
import NovaRtl.Formal.ProofOutcome
import NovaRtl.Optimization.ChangedLines
import NovaRtl.Optimization.Comparison
import NovaRtl.Orchestrator.Finality
import NovaRtl.Orchestrator.Payloads
import NovaRtl.Planner.Council
import NovaRtl.Planner.CouncilRecords
import NovaRtl.Planner.CouncilReturns
import NovaRtl.Planner.CouncilRuns
import NovaRtl.Planner.ProposalLimit
import NovaRtl.Planner.SingleAgentCalls
import NovaRtl.Planner.UserMessage
import NovaRtl.Platform.Confinement
import NovaRtl.Platform.Recovery
import NovaRtl.Platform.Rollback
import NovaRtl.Platform.ShellEnvironment
import NovaRtl.Recovery.Agreement
import NovaRtl.Recovery.Classifier
import NovaRtl.Recovery.Execution
import NovaRtl.Recovery.Fingerprint
import NovaRtl.Recovery.Router
import NovaRtl.Recovery.Selection
import NovaRtl.Scheduler.Concurrency
import NovaRtl.Scheduler.Deadlines
import NovaRtl.Scheduler.Leases
import NovaRtl.Scheduler.Lifecycle
import NovaRtl.Scheduler.Logs
import NovaRtl.Scheduler.Progress
import NovaRtl.Scheduler.Recovery
import NovaRtl.Search.ControllerResults
import NovaRtl.Search.Dag
import NovaRtl.Search.Pareto
import NovaRtl.Text.Words
import NovaRtl.Transact.Exits
import NovaRtl.Transact.Triples
import NovaRtl.Transforms.BooleanTree.Equivalence
import NovaRtl.Transforms.FsmDecode.Equivalence
import NovaRtl.Transforms.Materialization
import NovaRtl.Transforms.Predicate.Equivalence
import NovaRtl.Transforms.PriorityMux.Equivalence
import NovaRtl.Transforms.PriorityMux.Replacement
import NovaRtl.Transforms.PriorityMux.SideEffects
import NovaRtl.Transforms.Syntax.Protection
import NovaRtl.Vcd.Commands
import NovaRtl.Vcd.Dumps
