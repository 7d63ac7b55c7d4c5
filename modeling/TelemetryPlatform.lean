import TelemetryPlatform.Library.Program
import TelemetryPlatform.Library.Json
import TelemetryPlatform.Library.Text
import TelemetryPlatform.Library.Grouping
import TelemetryPlatform.Library.Transition
import TelemetryPlatform.Library.Binary64
import TelemetryPlatform.Library.Timestamp
import TelemetryPlatform.Library.WholeRuntime
import TelemetryPlatform.BranchLock.Model
import TelemetryPlatform.BranchLock.Operations
import TelemetryPlatform.BranchLock.Recovery
import TelemetryPlatform.BranchLock.Exclusion
import TelemetryPlatform.CwlSplit.Reshape
import TelemetryPlatform.CwlSplit.Handler
import TelemetryPlatform.CwlSplit.Delivery
import TelemetryPlatform.Deploy.Resolve
import TelemetryPlatform.Deploy.Partition
import TelemetryPlatform.Deploy.Scope
import TelemetryPlatform.Deploy.Cover
import TelemetryPlatform.Sweep.Calls
import TelemetryPlatform.Sweep.Handlers
import TelemetryPlatform.Sweep.Arn
import TelemetryPlatform.Sweep.Handling
import TelemetryPlatform.Sweep.Deletions
import TelemetryPlatform.Sweep.Addressing
import TelemetryPlatform.Sweep.FailSafe
import TelemetryPlatform.Sweep.Inventory
import TelemetryPlatform.Sweep.Main
import TelemetryPlatform.Sweep.NotFound
import TelemetryPlatform.Sweep.Passes
import TelemetryPlatform.Sweep.DeleteMode
import TelemetryPlatform.Sweep.InFlight
import TelemetryPlatform.Sweep.CheckMode
import TelemetryPlatform.Sweep.Liveness
import TelemetryPlatform.Library.FileTree
import TelemetryPlatform.Terragrunt.Layers
import TelemetryPlatform.Terragrunt.BucketGuard
import TelemetryPlatform.ScopeOverride.Authorization
import TelemetryPlatform.ScopeOverride.Verdict
import TelemetryPlatform.ScopeOverride.Agreement
import TelemetryPlatform.Library.Concurrent
import TelemetryPlatform.WafAllowlist.Apply
import TelemetryPlatform.WafAllowlist.Service
import TelemetryPlatform.CwlSplit.Rows
import TelemetryPlatform.CwlSplit.Stability
import TelemetryPlatform.CwlSplit.NonInterference
import TelemetryPlatform.CwlSplit.Reingestion
import TelemetryPlatform.Library.Dict
import TelemetryPlatform.Library.Double
import TelemetryPlatform.CwlSplit.Metrics
import TelemetryPlatform.Library.Hereditary
import TelemetryPlatform.CwlSplit.Payload
import TelemetryPlatform.CwlSplit.Retention
import TelemetryPlatform.CwlSplit.Totality
import TelemetryPlatform.CwlSplit.Isolation
import TelemetryPlatform.CwlSplit.FanOut
import TelemetryPlatform.BranchLock.Settings
import TelemetryPlatform.Release.Scope
import TelemetryPlatform.Release.Classification
import TelemetryPlatform.Library.Glob
import TelemetryPlatform.Library.Numeral
import TelemetryPlatform.Release.Version
import TelemetryPlatform.Release.Derivation
import TelemetryPlatform.Library.Tally
import TelemetryPlatform.PerfTest.Aggregator
import TelemetryPlatform.PerfTest.Exactness
import TelemetryPlatform.PerfTest.Conservation
import TelemetryPlatform.PerfTest.Rounding
import TelemetryPlatform.PerfTest.Finiteness
import TelemetryPlatform.Sweep.CostExplorer
import TelemetryPlatform.Sweep.Delegation
import TelemetryPlatform.Library.Regex
import TelemetryPlatform.PinnedSources.Toggle
import TelemetryPlatform.Library.Hcl
import TelemetryPlatform.PinnedSources.Sources
import TelemetryPlatform.PinnedSources.Soundness
import TelemetryPlatform.ConstSources.Scan
import TelemetryPlatform.ConstSources.Blocks
import TelemetryPlatform.ConstSources.Ownership
import TelemetryPlatform.Library.Dotted
import TelemetryPlatform.VersionFloor.Check
import TelemetryPlatform.VersionFloor.Mentions
import TelemetryPlatform.VersionFloor.Floor
import TelemetryPlatform.VariableWiring.Parse
import TelemetryPlatform.VariableWiring.Blocks
import TelemetryPlatform.VariableWiring.Headers
import TelemetryPlatform.VariableWiring.Search
import TelemetryPlatform.VariableWiring.Defaults
import TelemetryPlatform.VariableWiring.Wiring
import TelemetryPlatform.IdentityScan.Scan
import TelemetryPlatform.IdentityScan.Marks
import TelemetryPlatform.IdentityScan.Completeness
import TelemetryPlatform.Deploy.Skips
import TelemetryPlatform.Deploy.DeployRole
import TelemetryPlatform.Deploy.RoundTrip
import TelemetryPlatform.Deploy.ScopeRule
import TelemetryPlatform.Library.Packing
import TelemetryPlatform.LoadGen.Requests
import TelemetryPlatform.LoadGen.Run
import TelemetryPlatform.LoadGen.Truth
import TelemetryPlatform.Verifier.Storage
import TelemetryPlatform.Verifier.Cleanup
import TelemetryPlatform.Library.DateOrder
import TelemetryPlatform.Verifier.Errors
import TelemetryPlatform.Terragrunt.BucketNames
import TelemetryPlatform.Library.Stateful
import TelemetryPlatform.WafAllowlist.Remove
import TelemetryPlatform.WafAllowlist.Account
import TelemetryPlatform.WafAllowlist.Effects
import TelemetryPlatform.WafAllowlist.Laws
import TelemetryPlatform.Library.PosixPath
import TelemetryPlatform.Library.Worklist
import TelemetryPlatform.Copyability.Closure
import TelemetryPlatform.Copyability.ConfigPaths
import TelemetryPlatform.Copyability.Reachability
import TelemetryPlatform.Copyability.CommonRows
import TelemetryPlatform.Library.Rollback
import TelemetryPlatform.Copyability.Scope
import TelemetryPlatform.Copyability.SeedUndo
import TelemetryPlatform.Copyability.NoTrace
import TelemetryPlatform.Library.Interpolation
import TelemetryPlatform.PerfTest.Percentile
import TelemetryPlatform.AthenaCleanup.Workgroups
import TelemetryPlatform.GoGates.Run
import TelemetryPlatform.Release.Authorization
import TelemetryPlatform.Terratest.Suite
import TelemetryPlatform.Library.Lexing
import TelemetryPlatform.DataLake.Projection
import TelemetryPlatform.DependencyPaths.Validate
import TelemetryPlatform.Library.HclDocument
import TelemetryPlatform.DependencyPaths.Paths
import TelemetryPlatform.DependencyPaths.Blocks
import TelemetryPlatform.DependencyPaths.Soundness
import TelemetryPlatform.TerratestTags.Lint
import TelemetryPlatform.TerratestTags.References
import TelemetryPlatform.TerratestTags.Blocks
import TelemetryPlatform.TerratestTags.Contract
import TelemetryPlatform.Library.Spending
import TelemetryPlatform.Library.Watching
import TelemetryPlatform.WafAllowlist.SafeRuns
import TelemetryPlatform.WafAllowlist.Shards
import TelemetryPlatform.Terratest.Module
import TelemetryPlatform.Terratest.PostRun
import TelemetryPlatform.Terratest.Verdict
import TelemetryPlatform.Library.Ottl
import TelemetryPlatform.Routing.Registry
import TelemetryPlatform.Routing.Agreement
import TelemetryPlatform.Deploy.AccountFiles
import TelemetryPlatform.Deploy.Mirror
