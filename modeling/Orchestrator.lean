import Orchestrator.Interleave.Program
import Orchestrator.Interleave.System
import Orchestrator.Interleave.Discipline
import Orchestrator.Interleave.Calls
import Orchestrator.Interleave.Schedule
import Orchestrator.Common.Json
import Orchestrator.Common.Errors
import Orchestrator.Intents.State
import Orchestrator.Common.Platform
import Orchestrator.Xrpl.Codec
import Orchestrator.Xrpl.Types
import Orchestrator.Config.Validation
import Orchestrator.Intents.Payload
import Orchestrator.Database.Tables
import Orchestrator.Xrpl.Ledger
import Orchestrator.Preparation.Build
import Orchestrator.Signing.SignedBlob
import Orchestrator.Finality.Service
import Orchestrator.Submission.Service
import Orchestrator.Signing.Service
import Orchestrator.Preparation.Service
import Orchestrator.Intents.Service
import Orchestrator.Runtime.System
import Orchestrator.Runtime.Schedules
import Orchestrator.Lifecycle.Rows
import Orchestrator.Lifecycle.Moves
import Orchestrator.Lifecycle.Discipline
import Orchestrator.Lifecycle.Programs
import Orchestrator.Lifecycle.Changes
import Orchestrator.Finality.Grounds
import Orchestrator.Finality.Operations
import Orchestrator.Finality.Justified
import Orchestrator.Runtime.Honest
import Orchestrator.Finality.Agreement
import Orchestrator.Lifecycle.Artifact
import Orchestrator.Signing.Canonical
import Orchestrator.Preparation.Ownership
import Orchestrator.Preparation.Consumed
import Orchestrator.Submission.Baseline
import Orchestrator.Submission.Answers
import Orchestrator.Submission.Provisional
import Orchestrator.Submission.Attempts
import Orchestrator.Lifecycle.Audit
import Orchestrator.Lifecycle.Frozen
import Orchestrator.Lifecycle.Journal
import Orchestrator.Interleave.Lock
import Orchestrator.Lifecycle.Slots
import Orchestrator.Interleave.Outcomes
import Orchestrator.Lifecycle.Replies
import Orchestrator.Lifecycle.Failures
import Orchestrator.Lifecycle.Watch
import Orchestrator.Submission.Harmless
import Orchestrator.Lifecycle.InternalErrors
import Orchestrator.Lifecycle.Bounds
import Orchestrator.Lifecycle.StatusData
import Orchestrator.Signing.Admission
import Orchestrator.Lifecycle.Verdicts
import Orchestrator.Finality.Recovery
import Orchestrator.Common.JsonText
import Orchestrator.Intents.Validation
import Orchestrator.Interleave.Path
import Orchestrator.Intents.Canonical
import Orchestrator.Intents.Idempotency
import Orchestrator.Interleave.Machine
import Orchestrator.Xrpl.Capability
import Orchestrator.Connection.Manager
import Orchestrator.Connection.Served
import Orchestrator.Connection.Delivery
import Orchestrator.Connection.Single
import Orchestrator.Connection.Alive
import Orchestrator.Connection.Stream
import Orchestrator.Connection.Waiting
import Orchestrator.Connection.Failback
import Orchestrator.Common.Keyset
import Orchestrator.Common.IsoDate
import Orchestrator.Common.JsonParse
import Orchestrator.Common.Base64url
import Orchestrator.Intents.Cursor
import Orchestrator.Intents.Listing
import Orchestrator.Interleave.SingleFlight
import Orchestrator.Intents.Grammar
import Orchestrator.Preparation.Comparison
import Orchestrator.Signing.Acceptance
import Orchestrator.Signing.Freshness
import Orchestrator.Intents.Presenter
import Orchestrator.Intents.Views
import Orchestrator.Finality.Passes
import Orchestrator.Finality.Scheduler
import Orchestrator.Finality.Health
import Orchestrator.Finality.Isolation
import Orchestrator.Health.Readiness
import Orchestrator.Finality.Progress
import Orchestrator.Lifecycle.Network
import Orchestrator.Lifecycle.Presented
import Orchestrator.Lifecycle.Causes
import Orchestrator.Lifecycle.Completion
