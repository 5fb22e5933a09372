import RecoverAI.Services.AuditExport

/-!
# The events the export reads

The audit events the services record, in the form in which the table `audit_events` holds
them: the type of the entity and its id, the type of the event, and the payload of each
call of `record_event`.
-/

namespace RecoverAI

open Python

def FailureReason.value : FailureReason → String
  | .networkError => "network_error"
  | .gatewayTimeout => "gateway_timeout"
  | .providerError => "provider_error"
  | .insufficientFunds => "insufficient_funds"
  | .expiredInstrument => "expired_instrument"
  | .authenticationFailed => "authentication_failed"
  | .unknown => "unknown"

def DiagnosisCategory.value : DiagnosisCategory → String
  | .temporaryFailure => "temporary_failure"
  | .customerSideFailure => "customer_side_failure"
  | .authenticationFailure => "authentication_failure"
  | .repeatedFailure => "repeated_failure"
  | .unknownFailure => "unknown_failure"
  | .other => "other"

def ActorType.value : ActorType → String
  | .system => "system"
  | .ai => "ai"
  | .policyEngine => "policy_engine"
  | .human => "human"

def PolicyDecisionType.value : PolicyDecisionType → String
  | .allow => "allow"
  | .block => "block"

def DecisionSource.value : DecisionSource → String
  | .ai => "ai"
  | .fallback => "fallback"

/-- What stored events hold beyond the model: how a time is written, which id stands for
the name of an unmatched link, and the duration measured for an event. -/
structure Rendering where
  isoformat : Time → String
  uuid5 : String → Uuid
  duration : AuditEvent → Python.Float

/-- A string or `None`, as JSON. -/
def optionalText (text : Option String) : Json := (text.map Json.string).getD .null

def AuditEntity.typeName : AuditEntity → String
  | .payment _ => "payment"
  | .recoveryCase _ => "recovery_case"
  | .recoveryAttempt _ => "recovery_attempt"
  | .recoveryCycle _ => "recovery_cycle"
  | .webhook _ => "webhook"

def AuditEntity.storedId (rendering : Rendering) : AuditEntity → Uuid
  | .payment id | .recoveryCase id | .recoveryAttempt id | .recoveryCycle id => id
  | .webhook name => rendering.uuid5 name

def AuditBody.eventType : AuditBody → String
  | .recoveryCaseCreated .. => "recovery_case_created"
  | .paymentIngested .. => "payment_ingested"
  | .paymentIngestDeduplicated .. => "payment_ingest_deduplicated"
  | .diagnosisRequested .. => "diagnosis_requested"
  | .aiDiagnosisCreated .. => "ai_diagnosis_created"
  | .recoveryRecommendationCreated .. => "recovery_recommendation_created"
  | .policyEvaluated .. => "policy_evaluated"
  | .recoveryCaseStatusChanged .. => "recovery_case_status_changed"
  | .executionRequested .. => "execution_requested"
  | .policyRechecked .. => "policy_rechecked"
  | .executionStarted .. => "execution_started"
  | .paymentLinkCreated .. => "payment_link_created"
  | .providerAmbiguousResult .. => "provider_ambiguous_result"
  | .providerStateReconciliation .. => "provider_state_reconciliation"
  | .webhookUnmatchedPaymentLink .. => "webhook_unmatched_payment_link"
  | .paymentConfirmed .. => "payment_confirmed"
  | .paymentNotRecovered .. => "payment_not_recovered"
  | .recoveryCycleCompleted .. => "recovery_cycle_completed"

/-- The payload of an event, `duration` being the one measured for it. -/
def AuditBody.payload (rendering : Rendering) (duration : Python.Float) :
    AuditBody → List (String × Json)
  | .recoveryCaseCreated paymentId revenueAtRisk source =>
    [("payment_id", .string (uuidText paymentId)), ("revenue_at_risk", .int revenueAtRisk),
      ("source", .string source)]
  | .paymentIngested status amount currency failureReason =>
    [("status", .string status.value), ("amount", .int amount), ("currency", .string currency),
      ("failure_reason", optionalText (failureReason.map FailureReason.value))]
  | .paymentIngestDeduplicated providerPaymentId =>
    [("provider_payment_id", .string providerPaymentId)]
  | .diagnosisRequested caseStatus => [("case_status", .string caseStatus.value)]
  | .aiDiagnosisCreated decisionSource diagnosisCategory model promptVersion retryCount failureCode
      failureMessage =>
    [("decision_source", .string decisionSource.value),
      ("diagnosis_category", .string diagnosisCategory.value), ("model", optionalText model),
      ("prompt_version", .string promptVersion), ("latency_ms", .float duration),
      ("retry_count", .int retryCount), ("failure_code", optionalText failureCode),
      ("failure_message", optionalText failureMessage)]
  | .recoveryRecommendationCreated recommendedAction recoveryConfidence decisionExplanation =>
    [("recommended_action", .string recommendedAction.value),
      ("recovery_confidence", .float (.finite recoveryConfidence)),
      ("decision_explanation", .string decisionExplanation)]
  | .policyEvaluated decision reasonCodes policyVersion proposedAction =>
    [("decision", .string decision.value),
      ("reason_codes", .array (reasonCodes.map fun code => .string code.value)),
      ("policy_version", .string policyVersion), ("proposed_action", .string proposedAction.value)]
  | .recoveryCaseStatusChanged fromStatus toStatus reason =>
    [("from_status", .string fromStatus.value), ("to_status", .string toStatus.value),
      ("reason", optionalText reason)]
  | .executionRequested caseStatus => [("case_status", .string caseStatus.value)]
  | .policyRechecked decision reasonCodes policyVersion =>
    [("decision", .string decision.value),
      ("reason_codes", .array (reasonCodes.map fun code => .string code.value)),
      ("policy_version", .string policyVersion)]
  | .executionStarted action amount currency =>
    [("action", .string action.value), ("amount", .int amount), ("currency", .string currency)]
  | .paymentLinkCreated providerReference shortUrl amount currency expiresAt =>
    [("provider_reference", .string providerReference), ("short_url", optionalText shortUrl),
      ("amount", .int amount), ("currency", .string currency),
      ("expires_at", optionalText (expiresAt.map rendering.isoformat))]
  | .providerAmbiguousResult error => [("error", .string error)]
  | .providerStateReconciliation found error =>
    [("found", .bool found), ("error", optionalText error)]
  | .webhookUnmatchedPaymentLink paymentLinkId eventType =>
    [("payment_link_id", .string paymentLinkId), ("event_type", optionalText eventType)]
  | .paymentConfirmed providerReference status amountPaid paymentId =>
    [("provider_reference", .string providerReference), ("status", .string status.value),
      ("amount_paid", .int amountPaid), ("payment_id", optionalText paymentId)]
  | .paymentNotRecovered providerReference status amountPaid paymentId =>
    [("provider_reference", .string providerReference), ("status", .string status.value),
      ("amount_paid", .int amountPaid), ("payment_id", optionalText paymentId)]
  | .recoveryCycleCompleted autoExecute casesDiscovered casesDiagnosed casesExecuted casesFailed
      approved stopped escalated =>
    [("auto_execute", .bool autoExecute), ("cases_discovered", .int casesDiscovered),
      ("cases_diagnosed", .int casesDiagnosed), ("cases_executed", .int casesExecuted),
      ("cases_failed", .int casesFailed), ("approved", .int approved), ("stopped", .int stopped),
      ("escalated", .int escalated), ("duration_seconds", .float duration)]

/-- The stored form of an event. -/
def AuditEvent.stored (rendering : Rendering) (event : AuditEvent) : StoredEvent where
  entityType := event.entity.typeName
  entityId := event.entity.storedId rendering
  eventType := event.body.eventType
  actorType := event.actorType.value
  payload := event.body.payload rendering (rendering.duration event)
  correlationId := event.correlationId
  createdAt := event.createdAt

/-- A list of strings is joined. -/
theorem exists_joined_strings (texts : List String) :
    ∃ text, joined (.array (texts.map .string)) = .ok text := by
  have hmap : (texts.map Json.string).mapM Json.text = .ok texts := by
    induction texts with
    | nil => rfl
    | cons text texts ih => simp [List.mapM_cons, ih, Json.text, bind, Except.bind, pure, Except.pure]
  unfold joined
  by_cases h : (Json.array (texts.map .string)).truth
  · rw [if_pos h]
    exact ⟨_, by simp only [iterated, bind, Except.bind, hmap]; rfl⟩
  · rw [if_neg h]
    exact ⟨_, rfl⟩

end RecoverAI
