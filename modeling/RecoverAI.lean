import RecoverAI.Runs.Approval
import RecoverAI.Runs.Attempts
import RecoverAI.Runs.AuditTrail
import RecoverAI.Runs.Canonical
import RecoverAI.Runs.Cycles
import RecoverAI.Runs.Isolation
import RecoverAI.Runs.Diagnoses
import RecoverAI.Runs.Executions
import RecoverAI.Runs.Intake
import RecoverAI.Runs.Ledger
import RecoverAI.Runs.Links
import RecoverAI.Runs.Races
import RecoverAI.Runs.Replays
import RecoverAI.Runs.Revenue
import RecoverAI.Runs.Summary
import RecoverAI.Runs.Orphans
import RecoverAI.Runs.Evidence
import RecoverAI.Runs.Openings
import RecoverAI.Runs.Correlation
import RecoverAI.Runs.Outcomes
import RecoverAI.Providers.Boundary
import RecoverAI.Providers.Recommendation
import RecoverAI.Domain.Risk
import RecoverAI.Services.DedupKey
import RecoverAI.Services.StoredEvents
import RecoverAI.Services.WebhookAnswers
import RecoverAI.Runs.Sweeps
import RecoverAI.Runs.Reports
import RecoverAI.Runs.CycleReports
import RecoverAI.Runs.Deliveries
import RecoverAI.Runs.Window
import RecoverAI.Runs.DeadEnds
import RecoverAI.Runs.Candidates
import RecoverAI.Services.CorrelationId
import RecoverAI.Evaluation.Safety
import RecoverAI.Frontend.PolicyLadder
import RecoverAI.Runs.Columns
import RecoverAI.Runs.Backlog
import RecoverAI.Services.Paging
import RecoverAI.Evaluation.Scenarios
import RecoverAI.Evaluation.Split
import RecoverAI.Evaluation.Financial
import RecoverAI.Runs.Contacts
import RecoverAI.Runs.Timeline
import RecoverAI.Runs.Versions
import RecoverAI.Runs.Waiting
import RecoverAI.Runs.References
import RecoverAI.Runs.Idempotency
import RecoverAI.Services.ExportFormats
import RecoverAI.Runs.Retelling
