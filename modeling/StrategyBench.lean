import StrategyBench.Json.Read
import StrategyBench.Main
import StrategyBench.Proofs.Store.Master
import StrategyBench.Proofs.Store.Permanence
import StrategyBench.Proofs.Compare.RoundTrip
import StrategyBench.Proofs.Compare.Minimal
import StrategyBench.Proofs.Compare.Regions
import StrategyBench.Proofs.Service.Requests
import StrategyBench.Proofs.Service.Runs
import StrategyBench.Proofs.Service.Provenance
import StrategyBench.Proofs.Service.Isolation
import StrategyBench.Proofs.Sandbox.Refusal
import StrategyBench.Proofs.Sandbox.Declarations
import StrategyBench.Proofs.Sandbox.NativeLoops
import StrategyBench.Proofs.Sandbox.PatternCost
import StrategyBench.Proofs.Compare.Partition
import StrategyBench.Proofs.Compare.Symmetry
import StrategyBench.Proofs.Field.FixedPoint
import StrategyBench.Proofs.Sandbox.Redeclaration
import StrategyBench.Proofs.Version.Sequence
import StrategyBench.Proofs.Sandbox.Transparency
import StrategyBench.Proofs.Sandbox.History
import StrategyBench.Proofs.Version.Generated
import StrategyBench.Proofs.Service.Submissions
import StrategyBench.Proofs.Service.Revisions
import StrategyBench.Proofs.Sandbox.DistinctKeys
import StrategyBench.Proofs.Field.Lossless
import StrategyBench.Proofs.Field.Described
import StrategyBench.Proofs.Sandbox.Options
import StrategyBench.Proofs.Service.Listing
import StrategyBench.Proofs.Sandbox.SourceLines
