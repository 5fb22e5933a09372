import RecoverAI.Services.System

/-!
# The transactions of the system

The recovery protocol, stated apart from the programs that follow it. `Txn h db
sts` says that an operation whose record is `h` may commit the statements `sts` on
the database `db`. There is one rule for each transaction of a service, with the
exact statements of the transaction and what the operation knows when it commits
them: what it has read, and where its execution stands (`Phase`).

A rule says nothing about the state of the row it updates beyond what was read:
that the row is still the one that was read is what the version check of its
statements gives (`Db.CaseSeen.of_check`).
-/

namespace RecoverAI

open Interleave

/-! ### Statement lists -/

/-- A pending update is one statement at most. -/
theorem eq_of_mem_pending {p : Prop} [Decidable p] {st st' : Stmt}
    (h : st ∈ if p then [] else [st']) : st = st' := by
  split at h
  · cases h
  · exact List.mem_singleton.mp h

/-- What a session has pending on a case is its update. -/
theorem RecoveryCase.eq_of_mem_pendingUpdate {before after : RecoveryCase} {st : Stmt}
    (h : st ∈ before.pendingUpdate after) : st = .updateCase before after := eq_of_mem_pending h

/-- On an attempt, -/
theorem RecoveryAttempt.eq_of_mem_pendingUpdate {before after : RecoveryAttempt} {st : Stmt}
    (h : st ∈ before.pendingUpdate after) : st = .updateAttempt before after := eq_of_mem_pending h

/-- and on a link, likewise. -/
theorem RecoveryPaymentRequest.eq_of_mem_pendingUpdate {before after : RecoveryPaymentRequest}
    {st : Stmt} (h : st ∈ before.pendingUpdate after) : st = .updatePaymentRequest before after :=
  eq_of_mem_pending h

/-- A pending update of an attempt stays in its table. -/
theorem RecoveryAttempt.table_of_mem_pendingUpdate {before after : RecoveryAttempt} {st : Stmt}
    (h : st ∈ before.pendingUpdate after) : st.table = .recoveryAttempts := by
  rw [eq_of_mem_pendingUpdate h]
  rfl

/-- And one of a link in its own. -/
theorem RecoveryPaymentRequest.table_of_mem_pendingUpdate {before after : RecoveryPaymentRequest}
    {st : Stmt} (h : st ∈ before.pendingUpdate after) : st.table = .recoveryPaymentRequests := by
  rw [eq_of_mem_pendingUpdate h]
  rfl

/-- The statement of one audit event. -/
def auditStmt (entity : AuditEntity) (body : AuditBody) (actorType : ActorType)
    (correlationId : String) (createdAt : Time) : Stmt :=
  .insertAuditEvent { entity, body, actorType, correlationId := some correlationId, createdAt }

/-- A case after a flushed transition; `before` is the row the update was based on. -/
def RecoveryCase.moved (before after : RecoveryCase) (target : RecoveryCaseStatus) :
    RecoveryCase :=
  { after with status := target, version := before.version + 1 }

/-- The statements of one transition. -/
def transitionStmts (before after : RecoveryCase) (target : RecoveryCaseStatus)
    (correlationId : String) (reason : Option String) (dirty : List Stmt) (createdAt : Time) :
    List Stmt :=
  -- The row of the case goes first, then what else the session holds dirty, and the audit event of
  -- the transition last.
  .updateCase before { after with status := target } :: dirty ++
    [auditStmt (.recoveryCase after.id) (.recoveryCaseStatusChanged after.status target reason)
      .system correlationId createdAt]

/-- The statements that open a case. -/
def openingStmts (id : Uuid) (payment : Payment) (createdAt : Time) (correlationId : String)
    (auditedAt : Time) : List Stmt :=
  [.insertCase (openedCase id payment createdAt),
    auditStmt (.recoveryCase id) (.recoveryCaseCreated payment.id payment.amount "ingestion")
      .system correlationId auditedAt]

/-- One case to open: its id, its payment, and the two times of its opening. -/
abbrev Opening := Uuid × Payment × Time × Time

/-- The statements of one opening, under the correlation id of the operation. -/
def Opening.stmts (o : Opening) (correlationId : String) : List Stmt :=
  openingStmts o.1 o.2.1 o.2.2.1 correlationId o.2.2.2

/-- What holds of the row of an opened case and of its event holds of all an opening writes. -/
theorem forall_mem_openingStmts {C : Stmt → Prop} {correlationId : String}
    (hrow : ∀ row, C (.insertCase row))
    (haudit : ∀ id paymentId amount t,
      C (auditStmt (.recoveryCase id) (.recoveryCaseCreated paymentId amount "ingestion")
        .system correlationId t))
    (id : Uuid) (payment : Payment) (createdAt auditedAt : Time) :
    ∀ st ∈ openingStmts id payment createdAt correlationId auditedAt, C st := by
  intro st hst
  -- An opening writes two statements.
  simp only [openingStmts, List.mem_cons, List.not_mem_nil, or_false] at hst
  rcases hst with rfl | rfl
  · exact hrow _
  · exact haudit _ _ _ _

/-- It holds of all a sweep writes, for any number of openings. -/
theorem forall_mem_openings {C : Stmt → Prop} {correlationId : String}
    (hrow : ∀ row, C (.insertCase row))
    (haudit : ∀ id paymentId amount t,
      C (auditStmt (.recoveryCase id) (.recoveryCaseCreated paymentId amount "ingestion")
        .system correlationId t))
    (openings : List Opening) :
    ∀ st ∈ (openings.map fun o => Opening.stmts o correlationId).flatten, C st := by
  intro st hst
  -- Each statement of the sweep belongs to one opening.
  obtain ⟨l, hl, hst⟩ := List.mem_flatten.mp hst
  obtain ⟨o, -, rfl⟩ := List.mem_map.mp hl
  exact forall_mem_openingStmts hrow haudit _ _ _ _ st hst

/-- What one diagnosis has read and drawn. `t₀` to `t₈` are the times of its audit
events, in order. -/
structure Diagnosis where
  before : RecoveryCase
  payment : Payment
  customer : Customer
  attempts : List RecoveryAttempt
  outcome : AIOutcome
  config : PolicyConfig
  now : Time
  correlationId : String
  (t₀ t₁ t₂ t₃ t₄ t₅ t₆ t₇ t₈ : Time)

namespace Diagnosis

variable (d : Diagnosis)

/-- The door of a diagnosis. -/
def eligible : Bool := d.payment.status = .failed ∧ d.payment.amount > 0

/-- What the diagnosis has read at its start, newest first. -/
def requestReads : List Event :=
  [.clock d.t₀,
    .selected (.caseForDiagnosis d.before.id) (some ⟨d.before, d.payment, d.customer, d.attempts⟩)]

/-- And up to the door. -/
def admissionReads : List Event :=
  if d.before.status = .discovered then .clock d.t₁ :: d.requestReads else d.requestReads

/-- The diagnosis is noted before anything else. -/
def requestStmt : Stmt :=
  auditStmt (.recoveryCase d.before.id) (.diagnosisRequested d.before.status) .system
    d.correlationId d.t₀

/-- The case after the door. -/
def admitted : RecoveryCase :=
  if d.before.status = .discovered then
    d.before.moved { d.before with eligible := true } .eligible
  else d.before

/-- The transition through the door, made from DISCOVERED only. -/
def admissionStmts : List Stmt :=
  if d.before.status = .discovered then
    transitionStmts d.before { d.before with eligible := true } .eligible d.correlationId none [] d.t₁
  else []

/-- The case while the AI is asked. -/
def diagnosing : RecoveryCase := d.admitted.moved d.admitted .diagnosing

/-- The case with the recommendation on it. -/
def recommended : RecoveryCase :=
  d.diagnosing.moved (d.diagnosing.withRecommendation d.outcome.recommendation) .recommended

/-- And before the policy engine. -/
def inReview : RecoveryCase := d.recommended.moved d.recommended .policyReview

/-- The decision, taken on the row as it then is and at the time it is read. -/
def decision : PolicyDecision :=
  evaluatePolicy (diagnosisPolicyInput d.inReview d.payment d.outcome.recommendation d.now) d.config

/-- The object with the policy version assigned, and after its flush. -/
def versioned : RecoveryCase := { d.inReview with policyVersion := some d.decision.policyVersion }

/-- The row after that flush. -/
def reviewed : RecoveryCase := d.inReview.flushed d.versioned

/-- Where the case goes, and why. -/
def next : RecoveryCaseStatus × Option String :=
  resolveNextStatus d.outcome.recommendation.recommendedAction d.decision.decision
    d.decision.reasonCodes

/-- The case as committed. -/
def after : RecoveryCase := d.reviewed.moved d.reviewed d.next.1

/-- The two audit events about the answer of the AI. -/
def aiStmts : List Stmt :=
  [auditStmt (.recoveryCase d.admitted.id)
      (.aiDiagnosisCreated d.outcome.decisionSource d.outcome.recommendation.diagnosisCategory
        d.outcome.model d.outcome.promptVersion d.outcome.retryCount d.outcome.failureCode
        d.outcome.failureMessage)
      d.outcome.actorType d.correlationId d.t₃,
    auditStmt (.recoveryCase d.admitted.id)
      (.recoveryRecommendationCreated d.outcome.recommendation.recommendedAction
        d.outcome.recommendation.recoveryConfidence d.outcome.recommendation.decisionExplanation)
      d.outcome.actorType d.correlationId d.t₄]

/-- And the one about the decision. -/
def policyStmt : Stmt :=
  auditStmt (.recoveryCase d.admitted.id)
    (.policyEvaluated d.decision.decision d.decision.reasonCodes d.decision.policyVersion
      d.outcome.recommendation.recommendedAction)
    .policyEngine d.correlationId d.t₇

/-- The statements from the recommendation to the policy review. -/
def recommendationStmts : List Stmt :=
  transitionStmts d.admitted d.admitted .diagnosing d.correlationId none [] d.t₂ ++
    d.aiStmts ++
    transitionStmts d.diagnosing (d.diagnosing.withRecommendation d.outcome.recommendation)
      .recommended d.correlationId none [] d.t₅ ++
    transitionStmts d.recommended d.recommended .policyReview d.correlationId none [] d.t₆

/-- The statements of the policy review. -/
def reviewStmts : List Stmt :=
  -- The flush of the policy decision writes the version only when it is another one.
  d.inReview.pendingUpdate d.versioned ++ [d.policyStmt] ++
    transitionStmts d.reviewed d.reviewed d.next.1 d.correlationId d.next.2 [] d.t₈

/-- All statements of a diagnosis that goes through. -/
def stmts : List Stmt :=
  -- A diagnosis of a case that is past the door has no admission.
  d.requestStmt :: d.admissionStmts ++ d.recommendationStmts ++ d.reviewStmts

/-- All that the diagnosis has read; the context of the AI is built at the time `t`. -/
def reads (settings : Settings) (t : Time) : List Event :=
  [.clock d.t₈, .clock d.t₇, .clock d.now, .configured settings, .clock d.t₆, .clock d.t₅,
    .clock d.t₄, .clock d.t₃,
    .recommended (buildContext d.payment d.customer d.attempts t) (.ok d.outcome), .clock t,
    .clock d.t₂] ++ d.admissionReads

/-- The case a diagnosis turns away at the door. -/
def turnedAway : RecoveryCase :=
  d.before.moved { d.before with eligible := false } .ineligible

/-- All statements of a diagnosis that turns the case away. -/
def turnAwayStmts : List Stmt :=
  d.requestStmt ::
    transitionStmts d.before { d.before with eligible := false } .ineligible d.correlationId
      (some "Payment is not in a failed state, or has a non-positive amount.") [] d.t₁

end Diagnosis

/-- What one execution has read and drawn up to its first commit. -/
structure Execution where
  recoveryCase : RecoveryCase
  payment : Payment
  attempts : List RecoveryAttempt
  settings : Settings
  now : Time
  action : RecoveryAction
  correlationId : String
  (t₁ t₂ t₃ : Time)

namespace Execution

variable (x : Execution)

/-- The decision of the policy re-check. -/
def decision : PolicyDecision :=
  evaluatePolicy (recheckPolicyInput x.recoveryCase x.payment x.action x.now)
    (getPolicyConfig x.settings)

/-- What the execution has read, newest first. -/
def reads : List Event :=
  [.clock x.t₃, .clock x.t₂, .clock x.now, .configured x.settings, .clock x.t₁,
    .selected (.caseForExecution x.recoveryCase.id)
      (some ⟨x.recoveryCase, x.payment, x.attempts⟩)]

/-- The case as it is claimed. -/
def claimed : RecoveryCase := x.recoveryCase.moved x.recoveryCase .executing

/-- The first transaction of an execution. -/
def claimStmts : List Stmt :=
  [auditStmt (.recoveryCase x.recoveryCase.id) (.executionRequested x.recoveryCase.status) .system
      x.correlationId x.t₁,
    auditStmt (.recoveryCase x.recoveryCase.id)
      (.policyRechecked x.decision.decision x.decision.reasonCodes x.decision.policyVersion)
      .policyEngine x.correlationId x.t₂] ++
    transitionStmts x.recoveryCase x.recoveryCase .executing x.correlationId none [] x.t₃

/-- The only transaction of an execution that is withheld. -/
def withholdStmts (reason : String) (t : Time) : List Stmt :=
  -- The claim is not committed on its own here: the case is back out of EXECUTING when the
  -- transaction ends.
  x.claimStmts ++
    transitionStmts x.claimed x.claimed .escalated x.correlationId (some reason) [] t

end Execution

/-- The attempt of an execution. -/
def startedAttempt (recoveryCase : RecoveryCase) (payment : Payment) (correlationId reference : String)
    (id : Uuid) (startedAt createdAt : Time) : RecoveryAttempt where
  id := id
  recoveryCaseId := recoveryCase.id
  action := .sendPaymentLink
  status := .inProgress
  provider := some providerName
  amount := some payment.amount
  currency := some payment.currency
  providerReference := none
  idempotencyKey := some reference
  correlationId := some correlationId
  failureCode := none
  failureMessage := none
  startedAt := some startedAt
  completedAt := none
  createdAt := createdAt

/-- The second transaction of an execution. -/
def attemptStmts (attempt : RecoveryAttempt) (payment : Payment) (correlationId : String)
    (t : Time) : List Stmt :=
  [.insertAttempt attempt,
    auditStmt (.recoveryAttempt attempt.id)
      (.executionStarted attempt.action payment.amount payment.currency) .system correlationId t]

/-- The attempt after a link was created for it. -/
def RecoveryAttempt.succeed (attempt : RecoveryAttempt) (link : PaymentLinkSnapshot)
    (completedAt : Time) : RecoveryAttempt :=
  { attempt with
    status := .succeeded
    providerReference := some link.providerReference
    completedAt := some completedAt }

/-- The case after a link was recorded for it: the object, and the row. -/
def RecoveryCase.counted (recoveryCase : RecoveryCase) : RecoveryCase :=
  { recoveryCase with currentAttemptNumber := recoveryCase.currentAttemptNumber + 1 }

/-- And the row, one version on. -/
def RecoveryCase.recorded (recoveryCase : RecoveryCase) : RecoveryCase :=
  { recoveryCase.counted with version := recoveryCase.version + 1 }

/-- The transaction that records a link; its first part is one flush. -/
def recordFlush (recoveryCase : RecoveryCase) (attempt : RecoveryAttempt)
    (link : PaymentLinkSnapshot) (id : Uuid) (completedAt : Time) : List Stmt :=
  .updateCase recoveryCase recoveryCase.counted ::
    attempt.pendingUpdate (attempt.succeed link completedAt) ++
    -- The session orders a flush by table: the case, the attempt, then the new link.
    [.insertPaymentRequest (paymentRequestOf id recoveryCase attempt link)]

/-- All statements of it. -/
def recordStmts (recoveryCase : RecoveryCase) (attempt : RecoveryAttempt)
    (link : PaymentLinkSnapshot) (id : Uuid) (completedAt : Time) (correlationId : String)
    (t : Time) : List Stmt :=
  recordFlush recoveryCase attempt link id completedAt ++
    [auditStmt (.recoveryCase recoveryCase.id)
      (.paymentLinkCreated link.providerReference link.shortUrl link.amount link.currency
        link.expiresAt)
      .system correlationId t]

/-- The transaction that notes an ambiguous result and its reconciliation. -/
def reconcileStmts (attempt : RecoveryAttempt) (error : PaymentProviderError)
    (found : Option PaymentLinkSnapshot) (searchError : Option String) (correlationId : String)
    (t t' : Time) : List Stmt :=
  [auditStmt (.recoveryAttempt attempt.id) (.providerAmbiguousResult error.message) .system
      correlationId t,
    auditStmt (.recoveryAttempt attempt.id)
      (.providerStateReconciliation found.isSome searchError) .system correlationId t']

/-- The attempt after the provider call failed. -/
def RecoveryAttempt.fail (attempt : RecoveryAttempt) (category : ProviderFailureCategory)
    (message : String) (completedAt : Time) : RecoveryAttempt :=
  { attempt with
    status := .failed
    failureCode := some category.value
    failureMessage := some message
    completedAt := some completedAt }

/-- The transaction that gives an execution up. -/
def giveUpStmts (recoveryCase : RecoveryCase) (attempt : RecoveryAttempt)
    (category : ProviderFailureCategory) (message reason correlationId : String)
    (completedAt t : Time) : List Stmt :=
  attempt.pendingUpdate (attempt.fail category message completedAt) ++
    transitionStmts recoveryCase recoveryCase .escalated correlationId (some reason) [] t

/-- What one delivery has read of the link it is about and of its case. -/
structure Delivery where
  event : ParsedWebhookEvent
  correlationId : String
  paymentLinkId : String
  link : RecoveryPaymentRequest
  loaded : CaseForExecution
  status : RecoveryPaymentRequestStatus

namespace Delivery

variable (d : Delivery)

/-- The link as the event leaves it. -/
def observed : RecoveryPaymentRequest := d.link.observe d.status d.event.amountPaid

/-- What the delivery has read, newest first. -/
def reads : List Event :=
  [.selected (.caseForExecution d.link.recoveryCaseId) (some d.loaded),
    .selected (.paymentRequestByProviderReference d.paymentLinkId) (some d.link)]

/-- The event pays the link in full. -/
def FullyPaid : Prop := d.observed.status = .paid ∧ d.observed.amountPaid ≥ d.observed.amount

instance : Decidable d.FullyPaid := inferInstanceAs (Decidable (_ ∧ _))

/-- The case with the payment credited to it. -/
def credited : RecoveryCase :=
  { d.loaded.recoveryCase with
    recoveredAmount := d.loaded.recoveryCase.recoveredAmount + d.observed.amountPaid }

/-- What a delivery that fails the case notes on the attempt of the link. -/
def failureStmts (attempt : Option RecoveryAttempt) : List Stmt :=
  -- A link cancelled, and one paid short, are failures of the payment; only an expired one has its
  -- own category.
  let failureCategory : ProviderFailureCategory :=
    if d.observed.status = .expired then .paymentExpired else .paymentFailed
  match attempt with
  | some attempt => attempt.pendingUpdate { attempt with
      failureCode := some failureCategory.value
      failureMessage := some s!"Payment link ended in status '{d.observed.status.value}'." }
  -- The attempt of the link is gone, and the case fails without a note on it.
  | none => []

/-- The claim of a delivery. -/
def claimStmt (event : ParsedWebhookEvent) : Stmt :=
  .insertProcessedWebhookEvent
    { provider := providerName, eventType := event.eventType, dedupKey := event.dedupKey }

/-- The transaction of a delivery that changes the link only. -/
def observeStmts (t : Time) : List Stmt :=
  claimStmt d.event :: (d.link.pendingUpdate d.observed ++
    [auditStmt (.recoveryCase d.loaded.recoveryCase.id)
      (paymentEventBody d.observed d.event.paymentId) .system d.correlationId t])

/-- The transaction of a delivery that recovers the case. -/
def recoverStmts (t t' : Time) : List Stmt :=
  d.observeStmts t ++ transitionStmts d.loaded.recoveryCase d.credited .recovered d.correlationId
    (some "webhook_confirmed") [] t'

/-- The transaction of a delivery that fails the case. -/
def failStmts (attempt : Option RecoveryAttempt) (t t' : Time) : List Stmt :=
  d.observeStmts t ++ transitionStmts d.loaded.recoveryCase d.loaded.recoveryCase .failed
    d.correlationId (some "webhook_confirmed") (d.failureStmts attempt) t'

end Delivery

/-- The statements of a new payment: the customer, unless it exists, and the row
with its counters. -/
def paymentStmts (newCustomer : Bool) (customer : Customer) (payment : Payment)
    (correlationId : String) (t : Time) : List Stmt :=
  -- A customer that is already there is only counted up.
  (if newCustomer then [.insertCustomer customer] else []) ++
    [.updateCustomer customer (customer.countPayment payment.status), .insertPayment payment,
      auditStmt (.payment payment.id)
        (.paymentIngested payment.status payment.amount payment.currency payment.failureReason)
        .system correlationId t]

/-- What one ingestion of a new payment has been asked, read and drawn. -/
structure Ingestion where
  request : PaymentIngestRequest
  correlationId : String
  newCustomer : Bool
  customer : Customer
  paymentId : Uuid
  (createdAt updatedAt t : Time)

namespace Ingestion

variable (i : Ingestion)

/-- The row of the payment. -/
def payment : Payment where
  id := i.paymentId
  customerId := i.customer.id
  amount := i.request.amount
  currency := i.request.currency.toUpper
  status := i.request.status
  paymentMethodType := i.request.paymentMethodType
  failureReason := i.request.failureReason
  attemptNumber := i.request.attemptNumber
  providerPaymentId := i.request.providerPaymentId
  createdAt := i.createdAt
  updatedAt := i.updatedAt

/-- The statements of the ingestion. -/
def stmts : List Stmt :=
  paymentStmts i.newCustomer i.customer i.payment i.correlationId i.t

end Ingestion

end RecoverAI
