import ModuleBundler.Command.Reach
import ModuleBundler.Main
import ModuleBundler.Proofs.Discovery.Mappings
import ModuleBundler.Proofs.Discovery.Actions
import ModuleBundler.Proofs.Discovery.Economy
import ModuleBundler.Proofs.Conversion.Lines
import ModuleBundler.Proofs.Script.Rereading
import ModuleBundler.Proofs.Conversion.Recompiling
import ModuleBundler.Proofs.Conversion.Exporting
import ModuleBundler.Proofs.Conversion.RepeatedExports
import ModuleBundler.Proofs.Conversion.Hygiene
import ModuleBundler.Proofs.Bundling.Policy
import ModuleBundler.Proofs.Execution.Calls
import ModuleBundler.Proofs.Execution.Refinement
import ModuleBundler.Proofs.Execution.Loading
import ModuleBundler.Proofs.Execution.Caching
import ModuleBundler.Proofs.Execution.Reinvoking
import ModuleBundler.Proofs.Execution.Reading
import ModuleBundler.Proofs.Execution.Resolution
import ModuleBundler.Proofs.Graph.Validation
import ModuleBundler.Proofs.Graph.Chains
import ModuleBundler.Proofs.Graph.Operations
import ModuleBundler.Proofs.Graph.ManifestReading
import ModuleBundler.Proofs.Path.Walking
import ModuleBundler.Proofs.Resolver.Reference
import ModuleBundler.Proofs.Discovery.Recall
import ModuleBundler.Proofs.Bundling.Location
import ModuleBundler.Proofs.Bundling.Comments
import ModuleBundler.Proofs.Execution.Agreement
import ModuleBundler.Proofs.Command.Effects
import ModuleBundler.Proofs.Settings.Loading
import ModuleBundler.Proofs.Settings.Calls
