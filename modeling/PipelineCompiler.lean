import PipelineCompiler.Main
import PipelineCompiler.Proofs.Actions.Logins
import PipelineCompiler.Proofs.Actions.Paths
import PipelineCompiler.Proofs.Actions.Secrets
import PipelineCompiler.Proofs.Actions.ShellArgs
import PipelineCompiler.Proofs.Actions.Timeouts
import PipelineCompiler.Proofs.ArtifactPaths
import PipelineCompiler.Proofs.Command
import PipelineCompiler.Proofs.Concourse.BuildContext
import PipelineCompiler.Proofs.Concourse.Container
import PipelineCompiler.Proofs.Concourse.Copies
import PipelineCompiler.Proofs.Concourse.Fetches
import PipelineCompiler.Proofs.Concourse.ImageCache
import PipelineCompiler.Proofs.Concourse.Images
import PipelineCompiler.Proofs.Concourse.Inputs
import PipelineCompiler.Proofs.Concourse.Limits
import PipelineCompiler.Proofs.Concourse.Passed
import PipelineCompiler.Proofs.Concourse.Saves
import PipelineCompiler.Proofs.Concourse.SharedResources
import PipelineCompiler.Proofs.Concourse.TaskNames
import PipelineCompiler.Proofs.Duration.Written
import PipelineCompiler.Proofs.Lint.Defaults
import PipelineCompiler.Proofs.Lint.Located
import PipelineCompiler.Proofs.Lint.Reports
import PipelineCompiler.Proofs.Lint.WatchedPaths
import PipelineCompiler.Proofs.Lint.WellFormed
import PipelineCompiler.Proofs.Manifest.Defaults
import PipelineCompiler.Proofs.Manifest.RoundTrip
import PipelineCompiler.Proofs.Messages
import PipelineCompiler.Proofs.Path.Resolution
import PipelineCompiler.Proofs.PipelineNames
import PipelineCompiler.Proofs.Providers
import PipelineCompiler.Proofs.Script.Lowering
import PipelineCompiler.Proofs.Script.Readings
import PipelineCompiler.Proofs.Task.Listing
import PipelineCompiler.Proofs.Template
import PipelineCompiler.Proofs.TrackedBranch
import PipelineCompiler.Surroundings.Memory
