import RecoverAI.Domain.Providers
import RecoverAI.Framework.Table

/-!
# The rows of the database

One structure for each table (`app/models`), with the columns a service reads or
writes. `Db` is the committed content of all of them, every table in insertion
order.

An update of a row writes the columns whose value the session has changed
(`dirty`), and no others: this is how the object-relational mapper builds its
`UPDATE`. For a recovery case it also matches and raises the version.
-/

namespace RecoverAI

open Interleave

structure Customer where
  id : Uuid
  externalReference : Option String
  totalPaymentsCount : Int
  totalFailedPaymentsCount : Int
  deriving DecidableEq, Repr

structure Payment where
  id : Uuid
  customerId : Uuid
  amount : Int
  currency : String
  status : PaymentStatus
  paymentMethodType : PaymentMethodType
  failureReason : Option FailureReason
  attemptNumber : Int
  providerPaymentId : Option String
  createdAt : Time
  updatedAt : Time
  deriving DecidableEq, Repr

/-- A revenue-recovery opportunity for one failed payment. -/
structure RecoveryCase where
  id : Uuid
  paymentId : Uuid
  status : RecoveryCaseStatus
  /-- The optimistic-concurrency version counter. -/
  version : Int
  revenueAtRisk : Int
  recoveredAmount : Int
  eligible : Bool
  diagnosisCategory : Option DiagnosisCategory
  diagnosisNotes : Option String
  recoveryConfidence : Option ℚ
  recommendedAction : Option RecoveryAction
  currentAttemptNumber : Int
  customerContactCount : Int
  policyVersion : Option String
  createdAt : Time
  deriving DecidableEq, Repr

/-- One bounded execution of a recovery action. -/
structure RecoveryAttempt where
  id : Uuid
  recoveryCaseId : Uuid
  action : RecoveryAction
  status : RecoveryAttemptStatus
  provider : Option String
  amount : Option Int
  currency : Option String
  providerReference : Option String
  idempotencyKey : Option String
  correlationId : Option String
  failureCode : Option String
  failureMessage : Option String
  startedAt : Option Time
  completedAt : Option Time
  createdAt : Time
  deriving DecidableEq, Repr

/-- A payment link tied to one attempt, kept in sync by webhook events. -/
structure RecoveryPaymentRequest where
  id : Uuid
  recoveryCaseId : Uuid
  recoveryAttemptId : Uuid
  provider : String
  providerReference : String
  referenceId : String
  shortUrl : Option String
  amount : Int
  amountPaid : Int
  currency : String
  status : RecoveryPaymentRequestStatus
  expiresAt : Option Time
  deriving DecidableEq, Repr

/-- One claimed webhook event. No row has a null type: see `Stmt.check`. -/
structure ProcessedWebhookEvent where
  provider : String
  eventType : Option String
  dedupKey : String
  deriving DecidableEq, Repr

/-- What an audit event is about: `entity_type` together with `entity_id`. An
unmatched payment link is named by the text its `uuid5` is computed from. -/
inductive AuditEntity where
  | payment (id : Uuid)
  | recoveryCase (id : Uuid)
  | recoveryAttempt (id : Uuid)
  | recoveryCycle (id : Uuid)
  | webhook (name : String)
  deriving DecidableEq, Repr

/-- What an audit event says: `event_type` together with `payload`. -/
inductive AuditBody where
  | recoveryCaseCreated (paymentId : Uuid) (revenueAtRisk : Int) (source : String)
  | paymentIngested (status : PaymentStatus) (amount : Int) (currency : String)
      (failureReason : Option FailureReason)
  | paymentIngestDeduplicated (providerPaymentId : String)
  | diagnosisRequested (caseStatus : RecoveryCaseStatus)
  | aiDiagnosisCreated (decisionSource : DecisionSource) (diagnosisCategory : DiagnosisCategory)
      (model : Option String) (promptVersion : String) (retryCount : Int)
      (failureCode failureMessage : Option String)
  | recoveryRecommendationCreated (recommendedAction : RecoveryAction) (recoveryConfidence : ℚ)
      (decisionExplanation : String)
  | policyEvaluated (decision : PolicyDecisionType) (reasonCodes : List PolicyReasonCode)
      (policyVersion : String) (proposedAction : RecoveryAction)
  | recoveryCaseStatusChanged (fromStatus toStatus : RecoveryCaseStatus) (reason : Option String)
  | executionRequested (caseStatus : RecoveryCaseStatus)
  | policyRechecked (decision : PolicyDecisionType) (reasonCodes : List PolicyReasonCode)
      (policyVersion : String)
  | executionStarted (action : RecoveryAction) (amount : Int) (currency : String)
  | paymentLinkCreated (providerReference : String) (shortUrl : Option String) (amount : Int)
      (currency : String) (expiresAt : Option Time)
  | providerAmbiguousResult (error : String)
  | providerStateReconciliation (found : Bool) (error : Option String)
  | webhookUnmatchedPaymentLink (paymentLinkId : String) (eventType : Option String)
  | paymentConfirmed (providerReference : String) (status : RecoveryPaymentRequestStatus)
      (amountPaid : Int) (paymentId : Option String)
  | paymentNotRecovered (providerReference : String) (status : RecoveryPaymentRequestStatus)
      (amountPaid : Int) (paymentId : Option String)
  | recoveryCycleCompleted (autoExecute : Bool) (casesDiscovered casesDiagnosed casesExecuted
      casesFailed approved stopped escalated : Int)
  deriving DecidableEq, Repr

/-- A row of the append-only audit trail. -/
structure AuditEvent where
  entity : AuditEntity
  body : AuditBody
  actorType : ActorType
  correlationId : Option String
  createdAt : Time
  deriving DecidableEq, Repr

instance : Keyed Customer Uuid := ⟨Customer.id⟩
instance : Keyed Payment Uuid := ⟨Payment.id⟩
instance : Keyed RecoveryCase Uuid := ⟨RecoveryCase.id⟩
instance : Keyed RecoveryAttempt Uuid := ⟨RecoveryAttempt.id⟩
instance : Keyed RecoveryPaymentRequest Uuid := ⟨RecoveryPaymentRequest.id⟩

/-- The committed content of the database. -/
structure Db where
  customers : Table Customer
  payments : Table Payment
  recoveryCases : Table RecoveryCase
  recoveryAttempts : Table RecoveryAttempt
  recoveryPaymentRequests : Table RecoveryPaymentRequest
  processedWebhookEvents : Table ProcessedWebhookEvent
  auditEvents : Table AuditEvent
  deriving DecidableEq, Repr

/-- The empty database. -/
def Db.empty : Db := ⟨[], [], [], [], [], [], []⟩

/-! ### Updates -/

/-- What an update leaves in a column: `after` if the session has changed the
column, what the row holds otherwise. -/
def dirty {α : Type} [DecidableEq α] (before after current : α) : α :=
  if after = before then current else after

@[simp] theorem dirty_self {α : Type} [DecidableEq α] (before after : α) :
    dirty before after before = after := by
  unfold dirty
  split <;> simp_all

@[simp] theorem dirty_same {α : Type} [DecidableEq α] (before current : α) :
    dirty before before current = current := if_pos rfl

def Customer.write (before after row : Customer) : Customer :=
  { row with
    totalPaymentsCount :=
      dirty before.totalPaymentsCount after.totalPaymentsCount row.totalPaymentsCount
    totalFailedPaymentsCount := dirty before.totalFailedPaymentsCount
      after.totalFailedPaymentsCount row.totalFailedPaymentsCount }

/-- The version of the row read is matched by the statement and raised by one. -/
def RecoveryCase.write (before after row : RecoveryCase) : RecoveryCase :=
  { row with
    status := dirty before.status after.status row.status
    version := before.version + 1
    recoveredAmount := dirty before.recoveredAmount after.recoveredAmount row.recoveredAmount
    eligible := dirty before.eligible after.eligible row.eligible
    diagnosisCategory :=
      dirty before.diagnosisCategory after.diagnosisCategory row.diagnosisCategory
    diagnosisNotes := dirty before.diagnosisNotes after.diagnosisNotes row.diagnosisNotes
    recoveryConfidence :=
      dirty before.recoveryConfidence after.recoveryConfidence row.recoveryConfidence
    recommendedAction :=
      dirty before.recommendedAction after.recommendedAction row.recommendedAction
    currentAttemptNumber :=
      dirty before.currentAttemptNumber after.currentAttemptNumber row.currentAttemptNumber
    customerContactCount :=
      dirty before.customerContactCount after.customerContactCount row.customerContactCount
    policyVersion := dirty before.policyVersion after.policyVersion row.policyVersion }

def RecoveryAttempt.write (before after row : RecoveryAttempt) : RecoveryAttempt :=
  { row with
    status := dirty before.status after.status row.status
    providerReference :=
      dirty before.providerReference after.providerReference row.providerReference
    failureCode := dirty before.failureCode after.failureCode row.failureCode
    failureMessage := dirty before.failureMessage after.failureMessage row.failureMessage
    completedAt := dirty before.completedAt after.completedAt row.completedAt }

def RecoveryPaymentRequest.write (before after row : RecoveryPaymentRequest) :
    RecoveryPaymentRequest :=
  { row with
    status := dirty before.status after.status row.status
    amountPaid := dirty before.amountPaid after.amountPaid row.amountPaid }

theorem Customer.keepsKey_write (before after : Customer) :
    Table.KeepsKey (Customer.write before after) := fun _ => rfl

theorem RecoveryCase.keepsKey_write (before after : RecoveryCase) :
    Table.KeepsKey (RecoveryCase.write before after) := fun _ => rfl

theorem RecoveryAttempt.keepsKey_write (before after : RecoveryAttempt) :
    Table.KeepsKey (RecoveryAttempt.write before after) := fun _ => rfl

theorem RecoveryPaymentRequest.keepsKey_write (before after : RecoveryPaymentRequest) :
    Table.KeepsKey (RecoveryPaymentRequest.write before after) := fun _ => rfl

end RecoverAI
