import Mathlib.Init

/-!
# Domain enumerations

The enumerations shared by the models and the services (`app/domain/enums.py`),
each with the string value it is stored and compared under where a service reads
or writes that string.
-/

namespace RecoverAI

/-- Where a payment stands at the provider. -/
inductive PaymentStatus where
  | created | authorized | captured | failed | refunded
  deriving DecidableEq, Repr

def PaymentStatus.value : PaymentStatus → String
  | .created => "created"
  | .authorized => "authorized"
  | .captured => "captured"
  | .failed => "failed"
  | .refunded => "refunded"

inductive PaymentMethodType where
  | card | upi | netbanking | wallet | emi
  deriving DecidableEq, Repr

inductive FailureReason where
  | networkError | gatewayTimeout | providerError | insufficientFunds | expiredInstrument
  | authenticationFailed | unknown
  deriving DecidableEq, Repr

inductive DiagnosisCategory where
  | temporaryFailure | customerSideFailure | authenticationFailure | repeatedFailure
  | unknownFailure | other
  deriving DecidableEq, Repr

/-- The status of a recovery case. -/
inductive RecoveryCaseStatus where
  | discovered | eligible | ineligible | diagnosing | recommended | policyReview
  | approved | executing | recovered | stopped | escalated | failed
  deriving DecidableEq, Repr

def RecoveryCaseStatus.value : RecoveryCaseStatus → String
  | .discovered => "discovered"
  | .eligible => "eligible"
  | .ineligible => "ineligible"
  | .diagnosing => "diagnosing"
  | .recommended => "recommended"
  | .policyReview => "policy_review"
  | .approved => "approved"
  | .executing => "executing"
  | .recovered => "recovered"
  | .stopped => "stopped"
  | .escalated => "escalated"
  | .failed => "failed"

/-- The statuses a case never leaves. -/
def terminalRecoveryCaseStatuses : List RecoveryCaseStatus :=
  [.ineligible, .recovered, .stopped, .escalated]

/-- What may be done about a failed payment. -/
inductive RecoveryAction where
  | retryPayment | sendPaymentLink | sendReminder | escalate | stop
  deriving DecidableEq, Repr

def RecoveryAction.value : RecoveryAction → String
  | .retryPayment => "retry_payment"
  | .sendPaymentLink => "send_payment_link"
  | .sendReminder => "send_reminder"
  | .escalate => "escalate"
  | .stop => "stop"

inductive RecoveryAttemptStatus where
  | pending | inProgress | succeeded | failed | cancelled
  deriving DecidableEq, Repr

/-- Who an audit event is attributed to. -/
inductive ActorType where
  | system | ai | policyEngine | human
  deriving DecidableEq, Repr

inductive PolicyDecisionType where
  | allow | block
  deriving DecidableEq, Repr

inductive PolicyReasonCode where
  | maxRetriesReached | recoveryWindowExpired | maxContactsReached | confidenceBelowThreshold
  | actionNotEligibleForStatus | amountOutOfBounds | terminalStateProtected
  deriving DecidableEq, Repr

def PolicyReasonCode.value : PolicyReasonCode → String
  | .maxRetriesReached => "max_retries_reached"
  | .recoveryWindowExpired => "recovery_window_expired"
  | .maxContactsReached => "max_contacts_reached"
  | .confidenceBelowThreshold => "confidence_below_threshold"
  | .actionNotEligibleForStatus => "action_not_eligible_for_status"
  | .amountOutOfBounds => "amount_out_of_bounds"
  | .terminalStateProtected => "terminal_state_protected"

/-- Whether a recommendation came from the AI provider or from the fallback. -/
inductive DecisionSource where
  | ai | fallback
  deriving DecidableEq, Repr, Inhabited

/-- The status of a payment link, in the provider's own vocabulary. -/
inductive RecoveryPaymentRequestStatus where
  | created | partiallyPaid | paid | expired | cancelled
  deriving DecidableEq, Repr

namespace RecoveryPaymentRequestStatus

def value : RecoveryPaymentRequestStatus → String
  | .created => "created"
  | .partiallyPaid => "partially_paid"
  | .paid => "paid"
  | .expired => "expired"
  | .cancelled => "cancelled"

/-- Reading a status from its string; other strings are a `ValueError`. -/
def ofValue? (s : String) : Option RecoveryPaymentRequestStatus :=
  [created, partiallyPaid, paid, expired, cancelled].find? fun st => st.value = s

@[simp] theorem ofValue?_value (st : RecoveryPaymentRequestStatus) :
    ofValue? st.value = some st := by
  cases st <;> decide

end RecoveryPaymentRequestStatus

inductive ProviderFailureCategory where
  | providerTimeout | providerAuthError | providerRateLimit | providerValidationError
  | duplicateRequest | webhookVerificationFailure | paymentFailed | paymentExpired
  | ambiguousResult | unknownProviderError
  deriving DecidableEq, Repr

def ProviderFailureCategory.value : ProviderFailureCategory → String
  | .providerTimeout => "provider_timeout"
  | .providerAuthError => "provider_auth_error"
  | .providerRateLimit => "provider_rate_limit"
  | .providerValidationError => "provider_validation_error"
  | .duplicateRequest => "duplicate_request"
  | .webhookVerificationFailure => "webhook_verification_failure"
  | .paymentFailed => "payment_failed"
  | .paymentExpired => "payment_expired"
  | .ambiguousResult => "ambiguous_result"
  | .unknownProviderError => "unknown_provider_error"

end RecoverAI
