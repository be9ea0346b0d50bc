import AtlasCore.EventLog.Crash
import AtlasCore.HostApi.Status
import AtlasCore.Evidence.FailsClosed
import AtlasCore.Evidence.Fences
import AtlasCore.Evidence.Freshness
import AtlasCore.HostApi.Liveness
import AtlasCore.Controller.Identity
import AtlasCore.Evaluator.Earned
import AtlasCore.Evaluator.Gate
import AtlasCore.Controller.Run
import AtlasCore.Controller.Reasons
import AtlasCore.Migrate.Preserves
import AtlasCore.EventLog.Durable
import AtlasCore.Executor.Observed
import AtlasCore.Gateway.Denied
import AtlasCore.Controller.Logged
import AtlasCore.EventLog.Written
import AtlasCore.Evidence.Collect
import AtlasCore.Cli.Worker
import AtlasCore.Adapters.Skips
import AtlasCore.Evaluator.Retry
import AtlasCore.Feedback.Torn
import AtlasCore.Controller.Resumed
import AtlasCore.Evidence.Decisive
import AtlasCore.Evidence.Merging
import AtlasCore.Controller.AllOrNothing
import AtlasCore.Controller.Material
import AtlasCore.Controller.Progress
import AtlasCore.Adapters.Prompt
import AtlasCore.Evaluator.Question
import AtlasCore.Adapters.OutputContract
import AtlasCore.Adapters.Rounds
import AtlasCore.Approval.Freeze
import AtlasCore.Telemetry.Allowlist
import AtlasCore.Telemetry.Agrees
import AtlasCore.Adapters.Channel
import AtlasCore.HostApi.Follow
import AtlasCore.Controller.Closed
import AtlasCore.Gateway.Attempts
import AtlasCore.PatchProposal.Listing
import AtlasCore.Controller.Inputs
import AtlasCore.Evidence.BoundedRead
import AtlasCore.Evidence.Sentence
import AtlasCore.PatchProposal.Accounts
import AtlasCore.Controller.Inspected
import AtlasCore.Cli.Guard
import AtlasCore.Adapters.Credentials
import AtlasCore.EventLog.Redaction
