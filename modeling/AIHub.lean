import AIHub.Application.Messages
import AIHub.Application.Serve
import AIHub.Application.Startup
import AIHub.Config.SafePaths
import AIHub.Domain.Lifecycle
import AIHub.Gateway.Answers
import AIHub.Gateway.DedupComparison
import AIHub.Gateway.Expiry
import AIHub.Gateway.Provenance
import AIHub.Gateway.Replays
import AIHub.Gateway.Security
import AIHub.Locks.Acquire
import AIHub.Locks.Exclusion
import AIHub.Observability.JsonLines
import AIHub.Observability.Projections
import AIHub.Observability.Redelivery
import AIHub.Orchestrator.Attempts
import AIHub.Orchestrator.CancelCalls
import AIHub.Orchestrator.Notices
import AIHub.Orchestrator.Rounds
import AIHub.Orchestrator.Selection
import AIHub.Orchestrator.Wakeups
import AIHub.Projects.BaseBranches
import AIHub.Projects.GitCalls
import AIHub.Projects.TaskWorkspace
import AIHub.Runtime.ChangedFiles
import AIHub.Runtime.Output
import AIHub.Runtime.Processes
import AIHub.Slack.Background
import AIHub.Slack.Events
import AIHub.Slack.LatestPayload
import AIHub.Slack.Restarts
import AIHub.Slack.Retries
import AIHub.Slack.UpdateTexts
import AIHub.Storage.Artifacts
import AIHub.Storage.GatewayRequests
import AIHub.Storage.ListingOrder
import AIHub.Storage.MigrationRuns
import AIHub.Storage.Polling
import AIHub.Storage.Queueing
import AIHub.Storage.Restart
import AIHub.Storage.Retry
import AIHub.Storage.Rollback
