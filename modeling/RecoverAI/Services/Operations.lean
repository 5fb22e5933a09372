import RecoverAI.Models.Queries

/-!
# Operations and their results

What the system can be asked to do, with the request each operation carries, and
the response it delivers (`app/schemas`). Every request also carries the
correlation id its audit events are recorded under.
-/

namespace RecoverAI

/-- One payment as reported by the provider, with the bounds of its schema. -/
structure PaymentIngestRequest where
  customerReference : Option String
  amount : Int
  currency : String
  status : PaymentStatus
  paymentMethodType : PaymentMethodType
  failureReason : Option FailureReason
  attemptNumber : Int
  providerPaymentId : Option String
  autoCreateCase : Bool
  amount_pos : 0 < amount
  currency_length : currency.length = 3
  attemptNumber_ge : 1 ≤ attemptNumber
  customerReference_length : (customerReference.getD "").length ≤ 128
  providerPaymentId_length : (providerPaymentId.getD "").length ≤ 128
  deriving DecidableEq, Repr

/-- The arguments of one recovery cycle. -/
structure CycleBudget where
  autoExecute : Bool
  maxDiscover : Nat
  maxDiagnose : Nat
  maxExecute : Nat
  deriving DecidableEq, Repr

/-- The operations of the system. -/
inductive Op where
  | ingest (request : PaymentIngestRequest) (correlationId : String)
  | createCase (paymentId : Uuid) (correlationId : String)
  | discover (limit : Nat) (correlationId : String)
  | diagnose (caseId : Uuid) (correlationId : String)
  | execute (caseId : Uuid) (correlationId : String)
  | webhook (event : ParsedWebhookEvent) (correlationId : String)
  | cycle (budget : CycleBudget) (correlationId : String)
  deriving DecidableEq, Repr

structure PaymentIngestResponse where
  paymentId : Uuid
  customerId : Uuid
  recoveryCaseId : Option Uuid
  recoveryCaseStatus : Option RecoveryCaseStatus
  deduplicated : Bool
  deriving DecidableEq, Repr

structure RecoveryCaseCreatedResponse where
  recoveryCaseId : Uuid
  paymentId : Uuid
  status : RecoveryCaseStatus
  revenueAtRisk : Int
  created : Bool
  deriving DecidableEq, Repr

structure DiscoveryReport where
  scanned : Nat
  created : Nat
  skippedExisting : Nat
  caseIds : List Uuid
  deriving DecidableEq, Repr

structure DiagnosisResponse where
  recoveryCaseId : Uuid
  caseStatus : RecoveryCaseStatus
  decisionSource : Option DecisionSource
  diagnosisCategory : Option DiagnosisCategory
  recoveryConfidence : Option ℚ
  recommendedAction : Option RecoveryAction
  decisionExplanation : Option String
  policyDecision : Option PolicyDecisionType
  policyReasonCodes : List PolicyReasonCode
  policyVersion : Option String
  aiModel : Option String
  aiPromptVersion : Option String
  deriving DecidableEq, Repr

structure ExecutionResponse where
  recoveryCaseId : Uuid
  caseStatus : RecoveryCaseStatus
  executed : Bool
  reason : Option String
  policyDecision : Option PolicyDecisionType
  policyReasonCodes : List PolicyReasonCode
  providerReference : Option String
  shortUrl : Option String
  paymentLinkStatus : Option RecoveryPaymentRequestStatus
  amount : Option Int
  currency : Option String
  expiresAt : Option Time
  deriving DecidableEq, Repr

/-- How a webhook delivery was answered: `"processed"`, `"duplicate"` or
`"ignored"`. -/
inductive WebhookStatus where
  | processed | duplicate | ignored
  deriving DecidableEq, Repr

structure WebhookProcessResult where
  status : WebhookStatus
  eventType : Option String
  deriving DecidableEq, Repr

/-- What a cycle did to one case. -/
structure CycleCaseOutcome where
  recoveryCaseId : Uuid
  finalStatus : RecoveryCaseStatus
  diagnosed : Bool
  executed : Bool
  withheldReason : Option String
  error : Option RecoverAIError
  deriving DecidableEq, Repr

structure RecoveryCycleReport where
  cycleId : Uuid
  startedAt : Time
  finishedAt : Time
  autoExecute : Bool
  casesDiscovered : Nat
  casesDiagnosed : Nat
  casesExecuted : Nat
  casesFailed : Nat
  approved : Nat
  stopped : Nat
  escalated : Nat
  recovered : Nat
  outcomes : List CycleCaseOutcome
  deriving DecidableEq, Repr

/-- The response of an operation that returned. -/
inductive Response where
  | paymentIngested (response : PaymentIngestResponse)
  | recoveryCaseCreated (response : RecoveryCaseCreatedResponse)
  | discovered (report : DiscoveryReport)
  | diagnosed (response : DiagnosisResponse)
  | executed (response : ExecutionResponse)
  | webhookProcessed (result : WebhookProcessResult)
  | cycled (report : RecoveryCycleReport)
  deriving DecidableEq, Repr

/-- How an operation ended: with its response, or with an exception. -/
abbrev Outcome := Except Raised Response

end RecoverAI
