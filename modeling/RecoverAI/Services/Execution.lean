import RecoverAI.Services.Common

/-!
# The execution service

`app/services/execution_service.py`: an approved case is re-checked, committed as
EXECUTING, given an attempt, and only then is a payment link created at the
provider. Recording the link, or escalating the case when there is none, is a
transaction of its own after the call.
-/

namespace RecoverAI

open Interleave Service

/-- `_PROVIDER_NAME`. -/
def providerName : String := "razorpay"

/-- `_ERROR_TO_FAILURE_CATEGORY`, with its default. -/
def errorToFailureCategory : PaymentProviderErrorKind → ProviderFailureCategory
  | .auth => .providerAuthError
  | .rateLimit => .providerRateLimit
  | .validation => .providerValidationError
  | .timeout => .providerTimeout
  | _ => .unknownProviderError

/-- `RecoveryAction(case.recommended_action)`. -/
def recommendedActionOf (recoveryCase : RecoveryCase) : Service RecoveryAction :=
  match recoveryCase.recommendedAction with
  | some action => pure action
  | none => throw (.valueError "None is not a valid RecoveryAction")

/-- The policy input of a re-check: the stored case and payment values. -/
def recheckPolicyInput (recoveryCase : RecoveryCase) (payment : Payment)
    (action : RecoveryAction) (now : Time) : PolicyEvaluationInput where
  caseStatus := recoveryCase.status
  proposedAction := action
  attemptNumber := recoveryCase.currentAttemptNumber
  daysSinceDiscovery := wholeDays (now - recoveryCase.createdAt)
  customerContactCount := recoveryCase.customerContactCount
  recoveryConfidence := recoveryCase.recoveryConfidence.getD 0
  amount := payment.amount

/-- `_recheck_policy`. -/
def recheckPolicy (recoveryCase : RecoveryCase) (payment : Payment) : Service PolicyDecision := do
  let config ← readPolicyConfig
  let now ← now
  let action ← recommendedActionOf recoveryCase
  return evaluatePolicy (recheckPolicyInput recoveryCase payment action now) config

/-- `_escalate`. -/
def escalate (before recoveryCase : RecoveryCase) (reason correlationId : String)
    (decision : Option PolicyDecision) : Service ExecutionResponse := do
  let recoveryCase ← transition before recoveryCase .escalated correlationId (some reason) []
  commit
  return {
    recoveryCaseId := recoveryCase.id
    caseStatus := recoveryCase.status
    executed := false
    reason := some reason
    policyDecision := decision.map PolicyDecision.decision
    policyReasonCodes := (decision.map PolicyDecision.reasonCodes).getD []
    providerReference := none
    shortUrl := none
    paymentLinkStatus := none
    amount := none
    currency := none
    expiresAt := none }

/-- The row a created link is recorded as. -/
def paymentRequestOf (id : Uuid) (recoveryCase : RecoveryCase) (attempt : RecoveryAttempt)
    (link : PaymentLinkSnapshot) : RecoveryPaymentRequest where
  id := id
  recoveryCaseId := recoveryCase.id
  recoveryAttemptId := attempt.id
  provider := providerName
  providerReference := link.providerReference
  referenceId := (truthy link.referenceId).getD ((truthy attempt.idempotencyKey).getD "")
  shortUrl := link.shortUrl
  amount := link.amount
  amountPaid := link.amountPaid
  currency := link.currency
  status := link.status
  expiresAt := link.expiresAt

/-- `_record_payment_link_created`. The flush writes the tables in the order of
their foreign keys. -/
def recordPaymentLinkCreated (recoveryCase : RecoveryCase) (attempt : RecoveryAttempt)
    (link : PaymentLinkSnapshot) (correlationId : String) : Service ExecutionResponse := do
  let completedAt ← now
  let id ← uuid4
  let paymentRequest := paymentRequestOf id recoveryCase attempt link
  let succeeded := { attempt with
    status := .succeeded
    providerReference := some link.providerReference
    completedAt := some completedAt }
  let counted := { recoveryCase with
    currentAttemptNumber := recoveryCase.currentAttemptNumber + 1 }
  flush (.updateCase recoveryCase counted ::
    attempt.pendingUpdate succeeded ++ [.insertPaymentRequest paymentRequest])
  recordEvent (.recoveryCase recoveryCase.id)
    (.paymentLinkCreated link.providerReference link.shortUrl link.amount link.currency
      link.expiresAt)
    .system correlationId []
  commit
  return {
    recoveryCaseId := counted.id
    caseStatus := counted.status
    executed := true
    reason := none
    policyDecision := some .allow
    policyReasonCodes := []
    providerReference := some link.providerReference
    shortUrl := link.shortUrl
    paymentLinkStatus := some link.status
    amount := some link.amount
    currency := some link.currency
    expiresAt := link.expiresAt }

/-- `_handle_definite_failure`. -/
def handleDefiniteFailure (recoveryCase : RecoveryCase) (attempt : RecoveryAttempt)
    (error : PaymentProviderError) (correlationId : String)
    (failureCategory : Option ProviderFailureCategory) (reason : Option String) :
    Service ExecutionResponse := do
  let category := failureCategory.getD (errorToFailureCategory error.kind)
  let completedAt ← now
  let failed := { attempt with
    status := .failed
    failureCode := some category.value
    failureMessage := some error.message
    completedAt := some completedAt }
  flush (attempt.pendingUpdate failed)
  let escalationReason :=
    (truthy reason).getD s!"Provider call failed ({category.value}): {error.message}"
  escalate recoveryCase recoveryCase escalationReason correlationId none

/-- The reconciliation inside `_handle_ambiguous_creation`: what was found, and the
text of the provider error if the search failed. -/
def reconcile (referenceId : String) : Service (Option PaymentLinkSnapshot × Option String) := do
  match ← perform (.findPaymentLinkByReference referenceId) with
  | .ok found => return (found, none)
  | .error (.paymentProvider e) => return (none, some e.message)
  | .error (.other e) => throw e

/-- `_handle_ambiguous_creation`. -/
def handleAmbiguousCreation (recoveryCase : RecoveryCase) (attempt : RecoveryAttempt)
    (referenceId : String) (error : PaymentProviderError) (correlationId : String) :
    Service ExecutionResponse := do
  recordEvent (.recoveryAttempt attempt.id) (.providerAmbiguousResult error.message) .system
    correlationId []
  let (reconciled, reconciliationError) ← reconcile referenceId
  recordEvent (.recoveryAttempt attempt.id)
    (.providerStateReconciliation reconciled.isSome reconciliationError) .system correlationId []
  commit
  match reconciled with
  | some link => recordPaymentLinkCreated recoveryCase attempt link correlationId
  | none =>
    handleDefiniteFailure recoveryCase attempt error correlationId (some .ambiguousResult)
      (some "Provider response was ambiguous and could not be reconciled; manual review required.")

/-- The request for a payment link; amount and currency are the payment's. -/
def paymentLinkRequest (recoveryCase : RecoveryCase) (payment : Payment) (referenceId : String)
    (expireBy : Time) : CreatePaymentLinkRequest where
  referenceId := referenceId
  amount := payment.amount
  currency := payment.currency
  description := s!"RecoverAI payment recovery — case {uuidText recoveryCase.id}"
  expireBy := some expireBy

/-- `now + timedelta(hours=expiry_hours)`, which raises beyond `datetime.max`. -/
def expiry (now : Time) (expiryHours : Int) : Service Time :=
  let expireBy := now + expiryHours * microsecondsPerHour
  if expireBy > datetimeMax then throw (.other "date value out of range") else pure expireBy

/-- The part of `_create_payment_link` behind its commit: the call, and what follows
from the answer. `amount` is the amount the attempt was started with. -/
def callProvider (recoveryCase : RecoveryCase) (payment : Payment) (attempt : RecoveryAttempt)
    (amount expiryHours : Int) (executionReference correlationId : String) :
    Service ExecutionResponse := do
  if amount ≠ payment.amount then
    raise (.validationFailed "Recovery amount does not match the canonical payment amount.")
  let expireBy ← expiry (← now) expiryHours
  match ← perform (.createPaymentLink recoveryCase.id
      (paymentLinkRequest recoveryCase payment executionReference expireBy)) with
  | .ok link => recordPaymentLinkCreated recoveryCase attempt link correlationId
  | .error (.paymentProvider error) =>
    if error.kind = .ambiguous then
      handleAmbiguousCreation recoveryCase attempt executionReference error correlationId
    else
      handleDefiniteFailure recoveryCase attempt error correlationId none none
  | .error (.other e) => throw e

/-- `_create_payment_link`. -/
def createPaymentLink (recoveryCase : RecoveryCase) (payment : Payment)
    (correlationId : String) : Service ExecutionResponse := do
  let settings ← getSettings
  let executionReference := uuidText (← uuid4)
  let amount := payment.amount
  let currency := payment.currency
  let startedAt ← now
  let id ← uuid4
  let createdAt ← now
  let attempt : RecoveryAttempt :=
    { id
      recoveryCaseId := recoveryCase.id
      action := .sendPaymentLink
      status := .inProgress
      provider := some providerName
      amount := some amount
      currency := some currency
      providerReference := none
      idempotencyKey := some executionReference
      correlationId := some correlationId
      failureCode := none
      failureMessage := none
      startedAt := some startedAt
      completedAt := none
      createdAt }
  flush [.insertAttempt attempt]
  recordEvent (.recoveryAttempt attempt.id) (.executionStarted attempt.action amount currency)
    .system correlationId []
  commit
  callProvider recoveryCase payment attempt amount settings.recoveryPaymentLinkExpiryHours
    executionReference correlationId

/-- `_execute_recovery_case`. -/
def executeRecoveryCaseBody (caseId : Uuid) (correlationId : String) :
    Service ExecutionResponse := do
  let some loaded ← select (.caseForExecution caseId)
    | raise (.notFound s!"Recovery case '{uuidText caseId}' was not found.")
  let recoveryCase := loaded.recoveryCase
  ofExcept (validateTransition recoveryCase.status .executing)
  recordEvent (.recoveryCase recoveryCase.id) (.executionRequested recoveryCase.status) .system
    correlationId []
  let decision ← recheckPolicy recoveryCase loaded.payment
  recordEvent (.recoveryCase recoveryCase.id)
    (.policyRechecked decision.decision decision.reasonCodes decision.policyVersion)
    .policyEngine correlationId []
  let recoveryCase ← transition recoveryCase recoveryCase .executing correlationId none []
  if decision.decision = .block then
    let codes := ", ".intercalate (decision.reasonCodes.map PolicyReasonCode.value)
    return ← escalate recoveryCase recoveryCase s!"Policy re-check blocked execution: {codes}"
      correlationId (some decision)
  let proposedAction ← recommendedActionOf recoveryCase
  if proposedAction ∉ EXECUTABLE_ACTIONS then
    return ← escalate recoveryCase recoveryCase
      s!"Action '{proposedAction.value}' is not yet implemented by the executor."
      correlationId (some decision)
  commit
  createPaymentLink recoveryCase loaded.payment correlationId

/-- `execute_recovery_case`. -/
def executeRecoveryCase (caseId : Uuid) (correlationId : String) : Service ExecutionResponse :=
  guardAgainstConcurrentModification (executeRecoveryCaseBody caseId correlationId)

end RecoverAI
