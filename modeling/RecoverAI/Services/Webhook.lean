import RecoverAI.Services.Execution

/-!
# The webhook service

`app/services/webhook_service.py`: an event is claimed in the dedup ledger before
anything else, then applied to the payment link it names and, while the case of
the link is EXECUTING, to the case. Claim and effect are one transaction.
-/

namespace RecoverAI

open Interleave Service

/-- `_RELEVANT_LINK_STATUSES`. -/
def relevantLinkStatuses : List String :=
  [RecoveryPaymentRequestStatus.paid.value, RecoveryPaymentRequestStatus.expired.value,
    RecoveryPaymentRequestStatus.cancelled.value]

/-- The name `_unmatched_link_entity_id` hashes. -/
def unmatchedLinkEntityName (paymentLinkId : String) : String :=
  s!"razorpay:unmatched-payment-link:{paymentLinkId}"

/-- `_claim_event`. -/
def claimEvent (event : ParsedWebhookEvent) : Service Bool := do
  if (← select (.processedWebhookEvent event.dedupKey)).isSome then
    return false
  let claim : ProcessedWebhookEvent :=
    { provider := providerName, eventType := event.eventType, dedupKey := event.dedupKey }
  tryCatch (do flush [.insertProcessedWebhookEvent claim]; return true) fun
    | .integrityError => do
      rollback
      return false
    | e => throw e

/-- `session.get(RecoveryAttempt, id)` in a session that has loaded the attempts of
a case: those are answered without a select. -/
def getAttempt (loaded : List RecoveryAttempt) (attemptId : Uuid) :
    Service (Option RecoveryAttempt) :=
  match Table.get? loaded attemptId with
  | some attempt => pure (some attempt)
  | none => select (.attempt attemptId)

/-- `RecoveryPaymentRequestStatus(event.payment_link_status)`. -/
def linkStatusOf (status : Option String) : Service RecoveryPaymentRequestStatus :=
  match status.bind RecoveryPaymentRequestStatus.ofValue? with
  | some st => pure st
  | none => throw (.valueError "not a valid RecoveryPaymentRequestStatus")

/-- The link after an event: its status, and its amount unless the event carries
none or zero. -/
def RecoveryPaymentRequest.observe (paymentRequest : RecoveryPaymentRequest)
    (newStatus : RecoveryPaymentRequestStatus) (amountPaid : Option Int) :
    RecoveryPaymentRequest :=
  { paymentRequest with
    status := newStatus
    amountPaid := (amountPaid.filter (· ≠ 0)).getD paymentRequest.amountPaid }

/-- What an event about a link is recorded as. -/
def paymentEventBody (paymentRequest : RecoveryPaymentRequest) (paymentId : Option String) :
    AuditBody :=
  if paymentRequest.status = .paid then
    .paymentConfirmed paymentRequest.providerReference paymentRequest.status
      paymentRequest.amountPaid paymentId
  else
    .paymentNotRecovered paymentRequest.providerReference paymentRequest.status
      paymentRequest.amountPaid paymentId

/-- `webhook_service._transition`. -/
def webhookTransition (before recoveryCase : RecoveryCase) (target : RecoveryCaseStatus)
    (correlationId : String) (dirty : List Stmt) : Service RecoveryCase :=
  transition before recoveryCase target correlationId (some "webhook_confirmed") dirty

/-- The last part of `_apply_payment_link_event`: what an event does to a case that
is EXECUTING. -/
def settleCase (loaded : CaseForExecution) (paymentRequest : RecoveryPaymentRequest)
    (correlationId : String) : Service WebhookStatus := do
  let recoveryCase := loaded.recoveryCase
  let attempt ← getAttempt loaded.attempts paymentRequest.recoveryAttemptId
  if paymentRequest.status = .paid ∧ paymentRequest.amountPaid ≥ paymentRequest.amount then
    let credited := { recoveryCase with
      recoveredAmount := recoveryCase.recoveredAmount + paymentRequest.amountPaid }
    let _ ← webhookTransition recoveryCase credited .recovered correlationId []
  else
    let failureCategory : ProviderFailureCategory :=
      if paymentRequest.status = .expired then .paymentExpired else .paymentFailed
    let dirty := match attempt with
      | some attempt => attempt.pendingUpdate { attempt with
          failureCode := some failureCategory.value
          failureMessage :=
            some s!"Payment link ended in status '{paymentRequest.status.value}'." }
      | none => []
    let _ ← webhookTransition recoveryCase recoveryCase .failed correlationId dirty
  commit
  return .processed

/-- `_apply_payment_link_event`. -/
def applyPaymentLinkEvent (event : ParsedWebhookEvent) (paymentLinkId correlationId : String) :
    Service WebhookStatus := do
  let some paymentRequest ← select (.paymentRequestByProviderReference paymentLinkId)
    | do
      recordEvent (.webhook (unmatchedLinkEntityName paymentLinkId))
        (.webhookUnmatchedPaymentLink paymentLinkId event.eventType) .system correlationId []
      commit
      return .ignored
  let some loaded ← select (.caseForExecution paymentRequest.recoveryCaseId)
    | do
      commit
      return .ignored
  let newStatus ← linkStatusOf event.paymentLinkStatus
  let observed := paymentRequest.observe newStatus event.amountPaid
  recordEvent (.recoveryCase loaded.recoveryCase.id) (paymentEventBody observed event.paymentId)
    .system correlationId (paymentRequest.pendingUpdate observed)
  if loaded.recoveryCase.status ≠ .executing then
    commit
    return .ignored
  settleCase loaded observed correlationId

/-- `process_webhook_event`. -/
def processWebhookEvent (event : ParsedWebhookEvent) (correlationId : String) :
    Service WebhookProcessResult := do
  if !(← claimEvent event) then
    return { status := .duplicate, eventType := event.eventType }
  match event.paymentLinkId with
  | none =>
    commit
    return { status := .ignored, eventType := event.eventType }
  | some paymentLinkId =>
    if (event.paymentLinkStatus.all fun status => status ∉ relevantLinkStatuses) then
      commit
      return { status := .ignored, eventType := event.eventType }
    let status ← guardAgainstConcurrentModification
      (applyPaymentLinkEvent event paymentLinkId correlationId)
    return { status, eventType := event.eventType }

end RecoverAI
