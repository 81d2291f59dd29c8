import StateWeaver.Worlds.Isolation
import StateWeaver.Worlds.Lineage
import StateWeaver.Worlds.Deduplication
import StateWeaver.Worlds.Commits
import StateWeaver.Worlds.Failures
import StateWeaver.Lib.Schedule
import StateWeaver.Policy.Tightening
import StateWeaver.Policy.Containment
import StateWeaver.Policy.Authorization
import StateWeaver.Policy.PathGlobs
import StateWeaver.Lib.Combinations
import StateWeaver.Compiler.Minimality
import StateWeaver.Compiler.Operands
import StateWeaver.Compiler.ReplayPlans
import StateWeaver.Compiler.Cycles
import StateWeaver.Replay.CanonicalJson
import StateWeaver.Replay.Digests
import StateWeaver.Replay.Results
import StateWeaver.Replay.Signatures
import StateWeaver.Replay.Kernel
import StateWeaver.Replay.Determinism
import StateWeaver.Contracts.EventChain
import StateWeaver.Contracts.SecurityState
import StateWeaver.Search.WorkConserving
import StateWeaver.Search.Dominance
import StateWeaver.Lab.NoLostUpdate
import StateWeaver.Lab.CheckpointCodec
import StateWeaver.Bridge.ContentAddress
import StateWeaver.Bridge.FailClosed
import StateWeaver.Bridge.CallDiscipline
import StateWeaver.Bridge.Concurrent
import StateWeaver.Bridge.Durability
import StateWeaver.Bridge.ProviderReplies
import StateWeaver.StateBridge.CrashAtomic
import StateWeaver.Telemetry.Poisoning
import StateWeaver.Telemetry.SpanTrees
import StateWeaver.Compose.Ownership
import StateWeaver.Compose.Archive
import StateWeaver.StateChainBench.SolverOracle
import StateWeaver.StateChainBench.Distance
import StateWeaver.Twin.Deltas
import StateWeaver.Twin.Totality
import StateWeaver.Evidence.Snapshots
import StateWeaver.Evidence.AcceptanceResults
import StateWeaver.Candidate.VersionOrder
import StateWeaver.Candidate.ZipMetadata
import StateWeaver.Candidate.TreeIdentity
import StateWeaver.Candidate.LockClosure
import StateWeaver.Candidate.CanonicalJson
import StateWeaver.Candidate.CommandLists
import StateWeaver.Evidence.TraceDerivation
import StateWeaver.Lab.Disclosure
