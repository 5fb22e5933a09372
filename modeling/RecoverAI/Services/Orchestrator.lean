import RecoverAI.Services.Diagnosis
import RecoverAI.Services.Execution
import RecoverAI.Services.Ingestion

/-!
# The recovery cycle

`app/services/orchestrator_service.py`: one pass that discovers, diagnoses and,
where this is switched on, executes, all in one session. Domain errors of one case
are noted against that case; anything else ends the cycle.
-/

namespace RecoverAI

open Interleave Service

/-- `_READY_FOR_DIAGNOSIS`. -/
def readyForDiagnosis : List RecoveryCaseStatus := [.discovered, .eligible, .failed]

/-- The loop of `_cases_ready_for_diagnosis`. -/
def collectCases (limit : Nat) : List RecoveryCaseStatus → List Uuid → Service (List Uuid)
  | [], collected => return collected
  | status :: statuses, collected => do
    if collected.length ≥ limit then
      return collected
    let rows ← select (.casesByStatus status (limit - collected.length))
    collectCases limit statuses (collected ++ rows.map RecoveryCase.id)

/-- `_cases_ready_for_diagnosis`. -/
def casesReadyForDiagnosis (limit : Nat) : Service (List Uuid) := do
  return (← collectCases limit readyForDiagnosis []).take limit

/-- `_approved_backlog`; `exclude` is a set, given without repetitions. -/
def approvedBacklog (limit : Nat) (exclude : List Uuid) : Service (List Uuid) := do
  let rows ← select (.casesByStatus .approved (limit + exclude.length))
  return ((rows.map RecoveryCase.id).filter fun id => id ∉ exclude).take limit

/-- `_current_status`. -/
def currentStatus (caseId : Uuid) : Service RecoveryCaseStatus := do
  match ← select (.recoveryCase caseId) with
  | some recoveryCase => return recoveryCase.status
  | none => return .discovered

/-- `try: … except RecoverAIError`. -/
def catchRecoverAI {α : Type} (operation : Service α) : Service (Except RecoverAIError α) :=
  tryCatch (Except.ok <$> operation) fun
    | .recoverAI e => pure (.error e)
    | e => throw e

/-- The outcome of an execution inside a cycle, the common part of
`_execute_approved_case` and the end of `_process_case`. -/
def executeInCycle (caseId : Uuid) (correlationId : String) (diagnosed : Bool) :
    Service CycleCaseOutcome := do
  match ← catchRecoverAI (executeRecoveryCase caseId correlationId) with
  | .error e =>
    return {
      recoveryCaseId := caseId
      finalStatus := ← currentStatus caseId
      diagnosed
      executed := false
      withheldReason := none
      error := some e }
  | .ok execution =>
    return {
      recoveryCaseId := caseId
      finalStatus := execution.caseStatus
      diagnosed
      executed := execution.executed
      withheldReason := if execution.executed then none else execution.reason
      error := none }

/-- The correlation id of one case in a cycle. -/
def caseCorrelation (correlationId : String) (caseId : Uuid) : String :=
  s!"{correlationId}:{uuidText caseId}"

/-- `_execute_approved_case`. -/
def executeApprovedCase (caseId : Uuid) (correlationId : String) : Service CycleCaseOutcome :=
  executeInCycle caseId (caseCorrelation correlationId caseId) false

/-- A case that was diagnosed and is left where it is. -/
def diagnosedOnly (caseId : Uuid) (status : RecoveryCaseStatus) (withheldReason : Option String) :
    CycleCaseOutcome where
  recoveryCaseId := caseId
  finalStatus := status
  diagnosed := true
  executed := false
  withheldReason := withheldReason
  error := none

/-- `_process_case`. -/
def processCase (caseId : Uuid) (correlationId : String) (autoExecute : Bool)
    (executeBudgetRemaining : Nat) : Service CycleCaseOutcome := do
  let correlation := caseCorrelation correlationId caseId
  match ← catchRecoverAI (diagnoseRecoveryCase caseId correlation none) with
  | .error e =>
    return {
      recoveryCaseId := caseId
      finalStatus := ← currentStatus caseId
      diagnosed := false
      executed := false
      withheldReason := none
      error := some e }
  | .ok diagnosis =>
    let status := diagnosis.caseStatus
    if status ≠ .approved then
      return diagnosedOnly caseId status none
    if !autoExecute then
      return diagnosedOnly caseId status
        (some "auto_execute is disabled; approved case left for human review")
    if executeBudgetRemaining = 0 then
      return diagnosedOnly caseId status
        (some "per-cycle execution budget exhausted; will be picked up next cycle")
    executeInCycle caseId correlation true

/-- Step 2 of a cycle. The budget is lowered by each execution that succeeds. -/
def processCases (correlationId : String) (autoExecute : Bool) :
    List Uuid → Nat → Service (List CycleCaseOutcome × Nat)
  | [], budget => return ([], budget)
  | caseId :: caseIds, budget => do
    let outcome ← processCase caseId correlationId autoExecute budget
    let (outcomes, budget) ← processCases correlationId autoExecute caseIds
      (if outcome.executed then budget - 1 else budget)
    return (outcome :: outcomes, budget)

/-- The loop of step 3: the approved cases of earlier cycles. -/
def drainBacklog (correlationId : String) : List Uuid → Nat → Service (List CycleCaseOutcome)
  | [], _ => return []
  | caseId :: caseIds, budget => do
    if budget = 0 then
      return []
    let outcome ← executeApprovedCase caseId correlationId
    let outcomes ← drainBacklog correlationId caseIds
      (if outcome.executed then budget - 1 else budget)
    return outcome :: outcomes

/-- Step 3 of a cycle, if the cycle may execute and has budget left. -/
def drainApproved (correlationId : String) (autoExecute : Bool) (remaining : Nat)
    (processed : List CycleCaseOutcome) : Service (List CycleCaseOutcome) :=
  if autoExecute ∧ remaining > 0 then do
    let alreadyHandled := (processed.map CycleCaseOutcome.recoveryCaseId).eraseDups
    let backlog ← approvedBacklog remaining alreadyHandled
    drainBacklog correlationId backlog remaining
  else pure []

/-- The report of a cycle. -/
def cycleReport (cycleId : Uuid) (startedAt finishedAt : Time) (autoExecute : Bool)
    (discovered : Nat) (outcomes : List CycleCaseOutcome) : RecoveryCycleReport where
  cycleId := cycleId
  startedAt := startedAt
  finishedAt := finishedAt
  autoExecute := autoExecute
  casesDiscovered := discovered
  casesDiagnosed := outcomes.countP fun o => o.diagnosed
  casesExecuted := outcomes.countP fun o => o.executed
  casesFailed := outcomes.countP fun o => o.error.isSome
  approved := outcomes.countP fun o => o.finalStatus = .approved
  stopped := outcomes.countP fun o => o.finalStatus = .stopped
  escalated := outcomes.countP fun o => o.finalStatus = .escalated
  recovered := outcomes.countP fun o => o.finalStatus = .recovered
  outcomes := outcomes

/-- `run_recovery_cycle`. -/
def runRecoveryCycle (budget : CycleBudget) (correlationId : String) :
    Service RecoveryCycleReport := do
  let cycleId ← uuid4
  let startedAt ← now
  let discovery ← discoverFailedPayments budget.maxDiscover correlationId
  let candidates ← casesReadyForDiagnosis budget.maxDiagnose
  let (processed, remaining) ← processCases correlationId budget.autoExecute candidates
    (if budget.autoExecute then budget.maxExecute else 0)
  let drained ← drainApproved correlationId budget.autoExecute remaining processed
  let finishedAt ← now
  let report := cycleReport cycleId startedAt finishedAt budget.autoExecute discovery.created
    (processed ++ drained)
  recordEvent (.recoveryCycle cycleId)
    (.recoveryCycleCompleted budget.autoExecute report.casesDiscovered report.casesDiagnosed
      report.casesExecuted report.casesFailed report.approved report.stopped report.escalated)
    .system correlationId []
  commit
  return report

end RecoverAI
