import RecoverAI.Framework.Log
import RecoverAI.Runs.AuditTrail
import RecoverAI.Runs.Links

/-!
# The evidence of a decision

What the audit trail says of a case, in commit order, is its story (`Db.story`); each
transaction contributes a chapter. A change into APPROVED and the policy evaluation that
allows it stand in one chapter, and so do a change into RECOVERED and the payment that
confirms it: which transaction it is can be told from the change (`Txn.sets`).

A link is recorded in a later transaction than the re-check that clears it. What carries
the evidence from one to the other is the version of the case: as long as the row is the
one an execution has in hand, no other execution has been requested since the claim
(`Lawful.recheckedSince`), and the record of a link checks just that.
-/

namespace RecoverAI

open Interleave

/-! ### What is said of a case -/

/-- What a statement records of a case. -/
def Stmt.body? (caseId : Uuid) : Stmt → Option AuditBody
  | .insertAuditEvent row => if row.entity = .recoveryCase caseId then some row.body else none
  | _ => none

/-- What some statements record of a case. -/
def bodiesOf (caseId : Uuid) (sts : List Stmt) : List AuditBody := sts.filterMap (Stmt.body? caseId)

/-- What the audit trail says of a case, in commit order. -/
def Db.story (db : Db) (caseId : Uuid) : List AuditBody :=
  bodiesOf caseId (db.auditEvents.map .insertAuditEvent)

namespace AuditBody

/-- It records a change into the status. -/
def changesTo (target : RecoveryCaseStatus) : AuditBody → Bool
  | .recoveryCaseStatusChanged _ toStatus _ => toStatus = target
  | _ => false

/-- It requests a diagnosis. -/
def requestsDiagnosis : AuditBody → Bool
  | .diagnosisRequested _ => true
  | _ => false

/-- It requests an execution. -/
def requestsExecution : AuditBody → Bool
  | .executionRequested _ => true
  | _ => false

/-- It reports a new link. -/
def createsLink : AuditBody → Bool
  | .paymentLinkCreated _ _ _ _ _ => true
  | _ => false

/-- A policy evaluation that allows an action the system can execute. -/
def allowsExecution : AuditBody → Bool
  | .policyEvaluated decision _ _ proposedAction =>
    decision = .allow && proposedAction ∈ EXECUTABLE_ACTIONS
  | _ => false

/-- A policy re-check that allows the action. -/
def recheckAllows : AuditBody → Bool
  | .policyRechecked decision _ _ => decision = .allow
  | _ => false

/-- A payment that covers the amount of the link of the case that it names. -/
def confirms (db : Db) (caseId : Uuid) : AuditBody → Bool
  | .paymentConfirmed providerReference _ amountPaid _ =>
    db.recoveryPaymentRequests.any fun l => l.providerReference = providerReference ∧
      l.recoveryCaseId = caseId ∧ l.amount ≤ amountPaid
  | _ => false

end AuditBody

/-- An approval comes after an evaluation that allows it, made since a diagnosis was last
requested. -/
def ApprovedOnPolicy (story : List AuditBody) (body : AuditBody) : Prop :=
  body.changesTo .approved → SinceLast (fun y => y.requestsDiagnosis = true)
    (fun since => ∃ y ∈ since, y.allowsExecution) story

/-- An execution was requested, allowed by the re-check and begun; none was requested since. -/
def RecheckedSince (story : List AuditBody) : Prop :=
  SinceLast (fun y => y.requestsExecution = true)
    (fun since => (∃ y ∈ since, y.recheckAllows) ∧ ∃ y ∈ since, y.changesTo .executing) story

/-- A link comes after the re-check that clears it. -/
def LinkedOnRecheck (story : List AuditBody) (body : AuditBody) : Prop :=
  body.createsLink → RecheckedSince story

/-- A recovery comes after the payment that confirms it. -/
def RecoveredOnPayment (db : Db) (caseId : Uuid) (story : List AuditBody) (body : AuditBody) :
    Prop :=
  body.changesTo .recovered → ∃ y ∈ story, y.confirms db caseId

section Bodies

variable {caseId : Uuid} {sts sts' : List Stmt}

@[simp] theorem bodiesOf_nil : bodiesOf caseId [] = [] := rfl

@[simp] theorem bodiesOf_append :
    bodiesOf caseId (sts ++ sts') = bodiesOf caseId sts ++ bodiesOf caseId sts' :=
  List.filterMap_append

/-- Other tables say nothing. -/
theorem bodiesOf_of_table (h : ∀ st ∈ sts, st.table ≠ .auditEvents) : bodiesOf caseId sts = [] := by
  refine List.filterMap_eq_nil_iff.mpr fun st hst => ?_
  cases st with
  | insertAuditEvent row => exact absurd rfl (h _ hst)
  | _ => rfl

/-- An audit event of a case. -/
theorem bodiesOf_auditStmt {id : Uuid} {body : AuditBody} {actorType : ActorType}
    {correlationId : String} {now : Time} :
    bodiesOf caseId [auditStmt (.recoveryCase id) body actorType correlationId now] =
      if id = caseId then [body] else [] := by
  by_cases h : id = caseId <;> simp [bodiesOf, auditStmt, Stmt.body?, h]

/-- An audit event of something else. -/
theorem bodiesOf_auditStmt_ne {entity : AuditEntity} {body : AuditBody} {actorType : ActorType}
    {correlationId : String} {now : Time} (h : entity ≠ .recoveryCase caseId) :
    bodiesOf caseId [auditStmt entity body actorType correlationId now] = [] := by
  simp [bodiesOf, auditStmt, Stmt.body?, h]

/-- A transition records its change. -/
theorem bodiesOf_transitionStmts {before after : RecoveryCase} {target : RecoveryCaseStatus}
    {correlationId : String} {reason : Option String} {dirty : List Stmt} {now : Time}
    (hd : ∀ st ∈ dirty, st.table ≠ .auditEvents) :
    bodiesOf caseId (transitionStmts before after target correlationId reason dirty now) =
      if after.id = caseId then [.recoveryCaseStatusChanged after.status target reason] else [] := by
  have hupdate : ∀ st ∈ ([.updateCase before { after with status := target }] : List Stmt),
      st.table ≠ .auditEvents := by simp [Stmt.table]
  -- The update and what else is written say nothing; the event of the change does.
  change bodiesOf caseId ([.updateCase before { after with status := target }] ++ (dirty ++ _)) = _
  rw [bodiesOf_append, bodiesOf_append, bodiesOf_of_table hupdate, bodiesOf_of_table hd,
    bodiesOf_auditStmt]
  rfl

/-- The story grows by what is committed. -/
theorem story_applyAll (db : Db) : (Store.applyAll sts db).story caseId =
    db.story caseId ++ bodiesOf caseId sts := by
  refine Store.applyAll_adds (fun db : Db => db.story caseId) fun st db => ?_
  cases st with
  -- A row is appended, whatever it is about.
  | insertAuditEvent row =>
    change bodiesOf caseId ((db.auditEvents ++ [row]).map .insertAuditEvent) = _
    rw [List.map_append, bodiesOf_append]
    rfl
  | _ => exact (List.append_nil _).symm

end Bodies

/-! ### Landmarks -/

/-- What divides the story of a case. -/
inductive Landmark where
  | diagnosisRequested | approved | executionRequested | linkCreated | recovered
  deriving DecidableEq, Repr

/-- The landmark an event sets. -/
def AuditBody.landmark? : AuditBody → Option Landmark
  | .diagnosisRequested _ => some .diagnosisRequested
  | .executionRequested _ => some .executionRequested
  | .paymentLinkCreated _ _ _ _ _ => some .linkCreated
  | .recoveryCaseStatusChanged _ toStatus _ =>
    -- Of the changes of a status, these two are landmarks.
    if toStatus = .approved then some .approved
    else if toStatus = .recovered then some .recovered
    else none
  | _ => none

section Landmark

variable {body : AuditBody}

/-- The change into APPROVED, -/
theorem landmark?_of_changesTo_approved (h : body.changesTo .approved) :
    body.landmark? = some .approved := by
  cases body <;> simp_all [AuditBody.changesTo, AuditBody.landmark?]

/-- the change into RECOVERED, -/
theorem landmark?_of_changesTo_recovered (h : body.changesTo .recovered) :
    body.landmark? = some .recovered := by
  cases body <;> simp_all [AuditBody.changesTo, AuditBody.landmark?]

/-- the request of a diagnosis, -/
theorem landmark?_of_requestsDiagnosis (h : body.requestsDiagnosis) :
    body.landmark? = some .diagnosisRequested := by
  cases body <;> first | rfl | cases h

/-- that of an execution, -/
theorem landmark?_of_requestsExecution (h : body.requestsExecution) :
    body.landmark? = some .executionRequested := by
  cases body <;> first | rfl | cases h

/-- and the new link are landmarks. -/
theorem landmark?_of_createsLink (h : body.createsLink) :
    body.landmark? = some .linkCreated := by
  cases body <;> first | rfl | cases h

end Landmark

/-- No landmark is set. -/
def Unremarkable (sts : List Stmt) : Prop :=
  ∀ caseId, ∀ body ∈ bodiesOf caseId sts, body.landmark? = none

namespace Unremarkable

variable {sts sts' : List Stmt}

/-- Other tables set none. -/
theorem of_table (h : ∀ st ∈ sts, st.table ≠ .auditEvents) : Unremarkable sts := by
  intro caseId body hbody
  rw [bodiesOf_of_table h] at hbody
  cases hbody

/-- Nor do two parts that set none. -/
theorem append (h : Unremarkable sts) (h' : Unremarkable sts') : Unremarkable (sts ++ sts') := by
  intro caseId body hbody
  rw [bodiesOf_append, List.mem_append] at hbody
  exact hbody.elim (h caseId body) (h' caseId body)

/-- Nor does an event that is none. -/
theorem audit {entity : AuditEntity} {body : AuditBody} {actorType : ActorType}
    {correlationId : String} {now : Time} (h : body.landmark? = none) :
    Unremarkable [auditStmt entity body actorType correlationId now] := by
  intro caseId body' hbody
  -- The event is about the case, or the case hears nothing of it.
  by_cases hentity : entity = .recoveryCase caseId
  · subst hentity
    rw [bodiesOf_auditStmt, if_pos rfl, List.mem_singleton] at hbody
    rw [hbody, h]
  · rw [bodiesOf_auditStmt_ne hentity] at hbody
    cases hbody

/-- Nor a change into another status. -/
theorem transition {before after : RecoveryCase} {target : RecoveryCaseStatus}
    {correlationId : String} {reason : Option String} {dirty : List Stmt} {now : Time}
    (hd : ∀ st ∈ dirty, st.table ≠ .auditEvents) (ha : target ≠ .approved)
    (hr : target ≠ .recovered) :
    Unremarkable (transitionStmts before after target correlationId reason dirty now) := by
  intro caseId body hbody
  rw [bodiesOf_transitionStmts hd] at hbody
  split at hbody
  · rw [List.mem_singleton.mp hbody]
    rw [AuditBody.landmark?, if_neg ha, if_neg hr]
  · cases hbody

/-- Nor a sweep. -/
theorem openings (openings : List Opening) (correlationId : String) :
    Unremarkable (openings.map fun o => Opening.stmts o correlationId).flatten := by
  induction openings with
  | nil => exact of_table (by simp)
  | cons o openings ih =>
    -- The row says nothing; the event that follows it is no landmark.
    have hcase : Unremarkable [.insertCase (openedCase o.1 o.2.1 o.2.2.1)] :=
      of_table (by simp [Stmt.table])
    exact (hcase.append (audit rfl)).append ih

/-- Nor an ingestion. -/
theorem paymentStmts (newCustomer : Bool) (customer : Customer) (payment : Payment)
    (correlationId : String) (now : Time) :
    Unremarkable (paymentStmts newCustomer customer payment correlationId now) := by
  have hcustomer : Unremarkable (if newCustomer then [.insertCustomer customer] else []) := by
    refine of_table fun st hst => ?_
    split at hst
    · rw [List.mem_singleton.mp hst]; simp [Stmt.table]
    · cases hst
  have hpayment : Unremarkable
      [.updateCustomer customer (customer.countPayment payment.status), .insertPayment payment] :=
    of_table (by simp [Stmt.table])
  exact hcustomer.append (hpayment.append (audit rfl))

/-- Nor an update of an attempt. -/
theorem attemptUpdate (before after : RecoveryAttempt) :
    Unremarkable (before.pendingUpdate after) :=
  of_table fun st hst => by rw [RecoveryAttempt.table_of_mem_pendingUpdate hst]; simp

/-- Nor what a delivery says of its link. -/
theorem observe (d : Delivery) (now : Time) : Unremarkable (d.observeStmts now) := by
  have hclaim : Unremarkable [Delivery.claimStmt d.event] :=
    of_table (by simp [Delivery.claimStmt, Stmt.table])
  have hlink : Unremarkable (d.link.pendingUpdate d.observed) :=
    of_table fun st hst => by
      rw [RecoveryPaymentRequest.table_of_mem_pendingUpdate hst]; simp
  refine hclaim.append (hlink.append (audit ?_))
  -- A payment is confirmed, or it is noted that nothing was recovered.
  unfold paymentEventBody
  split <;> rfl

end Unremarkable

/-! ### What a transaction says -/

section Said

variable {id : Uuid}

/-- What a diagnosis says at the door. -/
def Diagnosis.admissionBodies (d : Diagnosis) : List AuditBody :=
  if d.before.status = .discovered then
    [.recoveryCaseStatusChanged .discovered .eligible none] else []

/-- Then up to the policy review. -/
def Diagnosis.recommendationBodies (d : Diagnosis) : List AuditBody :=
  [.recoveryCaseStatusChanged d.admitted.status .diagnosing none,
    .aiDiagnosisCreated d.outcome.decisionSource d.outcome.recommendation.diagnosisCategory
      d.outcome.model d.outcome.promptVersion d.outcome.retryCount d.outcome.failureCode
      d.outcome.failureMessage,
    .recoveryRecommendationCreated d.outcome.recommendation.recommendedAction
      d.outcome.recommendation.recoveryConfidence d.outcome.recommendation.decisionExplanation,
    .recoveryCaseStatusChanged .diagnosing .recommended none,
    .recoveryCaseStatusChanged .recommended .policyReview none]

/-- And in the review. -/
def Diagnosis.reviewBodies (d : Diagnosis) : List AuditBody :=
  [.policyEvaluated d.decision.decision d.decision.reasonCodes d.decision.policyVersion
      d.outcome.recommendation.recommendedAction,
    .recoveryCaseStatusChanged .policyReview d.next.1 d.next.2]

/-- All that a diagnosis says of its case. -/
theorem Diagnosis.bodiesOf_stmts (d : Diagnosis) : bodiesOf id d.stmts =
    if d.before.id = id then
      .diagnosisRequested d.before.status ::
        (d.admissionBodies ++ d.recommendationBodies) ++ d.reviewBodies
    else [] := by
  -- Part by part; each part is about the case of the diagnosis.
  have hnil : ∀ st ∈ ([] : List Stmt), st.table ≠ .auditEvents := by simp
  have hrequest : bodiesOf id [d.requestStmt] =
      if d.before.id = id then [.diagnosisRequested d.before.status] else [] :=
    bodiesOf_auditStmt
  have hadmission : bodiesOf id d.admissionStmts =
      if d.before.id = id then d.admissionBodies else [] := by
    unfold admissionStmts admissionBodies
    split
    · next h => rw [bodiesOf_transitionStmts hnil, h]
    · rw [bodiesOf_nil, ite_self]
  have hrecommendation : bodiesOf id d.recommendationStmts =
      if d.before.id = id then d.recommendationBodies else [] := by
    unfold recommendationStmts aiStmts
    rw [← List.singleton_append, bodiesOf_append, bodiesOf_append, bodiesOf_append, bodiesOf_append,
      bodiesOf_transitionStmts hnil, bodiesOf_transitionStmts hnil, bodiesOf_transitionStmts hnil,
      bodiesOf_auditStmt, bodiesOf_auditStmt]
    change (if d.admitted.id = id then _ else _) ++ ((if d.admitted.id = id then _ else _) ++
      (if d.admitted.id = id then _ else _)) ++ (if d.admitted.id = id then _ else _) ++
      (if d.admitted.id = id then _ else _) = _
    rw [d.admitted_id]
    split <;> rfl
  have hreview : bodiesOf id d.reviewStmts =
      if d.before.id = id then d.reviewBodies else [] := by
    have hpending : ∀ st ∈ d.inReview.pendingUpdate d.versioned, st.table ≠ .auditEvents := by
      unfold RecoveryCase.pendingUpdate
      split <;> simp [Stmt.table]
    have hstatus : d.reviewed.status = .policyReview := by
      rw [reviewed_eq]
      rfl
    unfold reviewStmts policyStmt
    rw [bodiesOf_append, bodiesOf_append, bodiesOf_of_table hpending, bodiesOf_auditStmt,
      bodiesOf_transitionStmts hnil, d.reviewed_id, d.admitted_id, hstatus]
    split <;> rfl
  change bodiesOf id ([d.requestStmt] ++ d.admissionStmts ++ d.recommendationStmts ++
    d.reviewStmts) = _
  rw [bodiesOf_append, bodiesOf_append, bodiesOf_append, hrequest, hadmission, hrecommendation,
    hreview]
  split <;> rfl

/-- What it says of a case that is turned away. -/
theorem Diagnosis.bodiesOf_turnAwayStmts (d : Diagnosis) : ∃ reason, bodiesOf id d.turnAwayStmts =
    if d.before.id = id then
      [.diagnosisRequested d.before.status,
        .recoveryCaseStatusChanged d.before.status .ineligible reason]
    else [] := by
  refine ⟨some "Payment is not in a failed state, or has a non-positive amount.", ?_⟩
  have hnil : ∀ st ∈ ([] : List Stmt), st.table ≠ .auditEvents := by simp
  have hrequest : bodiesOf id [d.requestStmt] =
      if d.before.id = id then [.diagnosisRequested d.before.status] else [] :=
    bodiesOf_auditStmt
  rw [turnAwayStmts, ← List.singleton_append, bodiesOf_append, hrequest,
    bodiesOf_transitionStmts hnil]
  change _ ++ (if d.before.id = id then _ else _) = _
  split <;> rfl

/-- What an execution says when it claims its case. -/
theorem Execution.bodiesOf_claimStmts (x : Execution) : bodiesOf id x.claimStmts =
    if x.recoveryCase.id = id then
      [.executionRequested x.recoveryCase.status,
        .policyRechecked x.decision.decision x.decision.reasonCodes x.decision.policyVersion,
        .recoveryCaseStatusChanged x.recoveryCase.status .executing none]
    else [] := by
  have hnil : ∀ st ∈ ([] : List Stmt), st.table ≠ .auditEvents := by simp
  rw [claimStmts, ← List.singleton_append, bodiesOf_append, bodiesOf_append, bodiesOf_auditStmt,
    bodiesOf_auditStmt, bodiesOf_transitionStmts hnil]
  split <;> rfl

/-- What it says when the link is recorded. -/
theorem bodiesOf_recordStmts {c : RecoveryCase} {attempt : RecoveryAttempt}
    {link : PaymentLinkSnapshot} {linkId : Uuid} {completedAt : Time} {correlationId : String}
    {now : Time} :
    bodiesOf id (recordStmts c attempt link linkId completedAt correlationId now) =
      if c.id = id then [.paymentLinkCreated link.providerReference link.shortUrl link.amount
        link.currency link.expiresAt] else [] := by
  have hflush : ∀ st ∈ recordFlush c attempt link linkId completedAt, st.table ≠ .auditEvents := by
    intro st hst
    rw [recordFlush, List.cons_append, List.mem_cons, List.mem_append] at hst
    rcases hst with rfl | hst | hst
    · simp [Stmt.table]
    · rw [RecoveryAttempt.table_of_mem_pendingUpdate hst]; simp
    · rw [List.mem_singleton.mp hst]; simp [Stmt.table]
  rw [recordStmts, bodiesOf_append, bodiesOf_of_table hflush, bodiesOf_auditStmt]
  rfl

/-- What a delivery says of the payment. -/
theorem Delivery.bodiesOf_observeStmts (d : Delivery) (now : Time) :
    bodiesOf id (d.observeStmts now) =
      if d.loaded.recoveryCase.id = id then [paymentEventBody d.observed d.event.paymentId] else [] := by
  have hlink : ∀ st ∈ claimStmt d.event :: d.link.pendingUpdate d.observed,
      st.table ≠ .auditEvents := by
    intro st hst
    rcases List.mem_cons.mp hst with rfl | hst
    · simp [claimStmt, Stmt.table]
    · rw [RecoveryPaymentRequest.table_of_mem_pendingUpdate hst]; simp
  rw [observeStmts, ← List.cons_append, bodiesOf_append, bodiesOf_of_table hlink,
    bodiesOf_auditStmt]
  rfl

end Said

/-- Up to its policy review a diagnosis sets no further landmark. -/
theorem Diagnosis.landmark?_eq_none (d : Diagnosis) {body : AuditBody}
    (h : body ∈ d.admissionBodies ++ d.recommendationBodies) : body.landmark? = none := by
  rcases List.mem_append.mp h with h | h
  · unfold admissionBodies at h
    split at h
    · rw [List.mem_singleton.mp h]; rfl
    · cases h
  · unfold recommendationBodies at h
    simp only [List.mem_cons, List.not_mem_nil, or_false] at h
    rcases h with rfl | rfl | rfl | rfl | rfl <;> rfl

/-! ### Who sets a landmark -/

/-- The transactions that set a landmark in the story of a case; any diagnosis sets the
first. -/
inductive Sets (h : List Event) (db : Db) : Uuid → List Stmt → Landmark → Prop where
  | diagnosisRequested (id : Uuid) (sts : List Stmt) : Sets h db id sts .diagnosisRequested
  | approved (id : Uuid) (d : Diagnosis) : Sets h db id d.stmts .approved
  | executionRequested {sts : List Stmt} (x : Execution) (c : RecoveryCase) (known : x.Known db)
      (turns : Turns (x.claimStmts ++ sts) x.recoveryCase c)
      (moved : x.recoveryCase.version < c.version) :
      Sets h db x.recoveryCase.id (x.claimStmts ++ sts) .executionRequested
  | linkCreated (c : RecoveryCase) (attempt : RecoveryAttempt) (link : PaymentLinkSnapshot)
      (linkId : Uuid) (completedAt : Time) (correlationId : String) (t : Time)
      (inHand : (phase h).case? = some c) :
      Sets h db c.id (recordStmts c attempt link linkId completedAt correlationId t) .linkCreated
  | recovered (d : Delivery) (t t' : Time) (known : d.Known h db) (paid : d.FullyPaid) :
      Sets h db d.loaded.recoveryCase.id (d.recoverStmts t t') .recovered

section Sets

variable {h : List Event} {db : Db} {sts : List Stmt} {id : Uuid} {body : AuditBody}
  {landmark : Landmark}

/-- A request, allowed or not, moves the case. -/
theorem Sets.of_claimStmts {x : Execution} {c : RecoveryCase} (known : x.Known db)
    (turns : Turns (x.claimStmts ++ sts) x.recoveryCase c)
    (moved : x.recoveryCase.version < c.version) (rest : Unremarkable sts)
    (hbody : body ∈ bodiesOf id (x.claimStmts ++ sts)) (hl : body.landmark? = some landmark) :
    Sets h db id (x.claimStmts ++ sts) landmark := by
  rw [bodiesOf_append, x.bodiesOf_claimStmts, List.mem_append] at hbody
  rcases hbody with hbody | hbody
  · split at hbody
    · next hid =>
      subst hid
      simp only [List.mem_cons, List.not_mem_nil, or_false] at hbody
      -- The request is the landmark; the re-check and the change into EXECUTING are none.
      rcases hbody with rfl | rfl | rfl <;> cases hl
      exact .executionRequested x c known turns moved
    · cases hbody
  · rw [rest id body hbody] at hl
    cases hl

/-- A diagnosis sets its landmark by the request or by the approval. -/
theorem Sets.of_diagnosis {d : Diagnosis} (hbody : body ∈ bodiesOf id d.stmts)
    (hl : body.landmark? = some landmark) : Sets h db id d.stmts landmark := by
  rw [d.bodiesOf_stmts] at hbody
  split at hbody
  case isFalse => cases hbody
  rw [List.mem_append, List.mem_cons, or_assoc] at hbody
  rcases hbody with rfl | hbody | hbody
  · -- The request comes first.
    cases hl
    exact .diagnosisRequested _ _
  · -- The part up to the review sets none.
    rw [d.landmark?_eq_none hbody] at hl
    cases hl
  · simp only [Diagnosis.reviewBodies, List.mem_cons, List.not_mem_nil, or_false] at hbody
    rcases hbody with rfl | rfl
    · cases hl
    · -- the review approves the case, or stops or escalates it
      rcases d.next_mem with hnext | hnext | hnext <;> rw [hnext] at hl <;> cases hl
      exact .approved id d

/-- **A landmark tells the transaction that set it.** -/
theorem Txn.sets (htxn : Txn h db sts) (hbody : body ∈ bodiesOf id sts)
    (hl : body.landmark? = some landmark) : Sets h db id sts landmark := by
  have hclaim (event : ParsedWebhookEvent) : Unremarkable [Delivery.claimStmt event] :=
    .of_table (by simp [Delivery.claimStmt, Stmt.table])
  have hnil : ∀ st ∈ ([] : List Stmt), st.table ≠ .auditEvents := by simp
  -- most transactions set none
  have hnone : Unremarkable sts → Sets h db id sts landmark := fun hu => by
    rw [hu id body hbody] at hl
    cases hl
  cases htxn with
  | ingested i => exact hnone (.paymentStmts _ _ _ _ _)
  | ingestedWithCase i id createdAt t' =>
    have hcase : Unremarkable [.insertCase (openedCase id i.payment createdAt)] :=
      .of_table (by simp [Stmt.table])
    exact hnone ((Unremarkable.paymentStmts _ _ _ _ _).append (hcase.append (.audit rfl)))
  | deduplicated => exact hnone (.audit rfl)
  | opened openings correlationId => exact hnone (.openings _ _)
  -- Turning a case away begins with the request of a diagnosis.
  | turnedAway d =>
    obtain ⟨reason, hbodies⟩ : ∃ reason, bodiesOf id d.turnAwayStmts = _ := d.bodiesOf_turnAwayStmts
    rw [hbodies] at hbody
    split at hbody
    · simp only [List.mem_cons, List.not_mem_nil, or_false] at hbody
      rcases hbody with rfl | rfl <;> cases hl
      exact .diagnosisRequested _ _
    · cases hbody
  | diagnosed d => exact .of_diagnosis hbody hl
  -- A claim alone is a claim with nothing after it.
  | claimed x op idle known =>
    have hturns := x.turns_claimStmts
    rw [← List.append_nil x.claimStmts] at hbody hturns ⊢
    exact .of_claimStmts known hturns (Int.lt_succ _) (.of_table hnil) hbody hl
  -- A withheld execution was requested as well.
  | withheld x reason now op idle known =>
    have hmoved : x.recoveryCase.version < x.withheld.version := by
      change x.recoveryCase.version < x.recoveryCase.version + 1 + 1
      omega
    exact .of_claimStmts known (x.turns_withholdStmts reason now) hmoved
      (.transition hnil (by simp) (by simp)) hbody hl
  | attempted =>
    have hattempt (a : RecoveryAttempt) : Unremarkable [.insertAttempt a] :=
      .of_table (by simp [Stmt.table])
    exact hnone ((hattempt _).append (.audit rfl))
  | recorded c attempt made link linkId completedAt correlationId now op inHand =>
    rw [bodiesOf_recordStmts] at hbody
    split at hbody
    · next hid =>
      subst hid
      -- The one thing said is that the link was created.
      rw [List.mem_singleton.mp hbody] at hl
      cases hl
      exact .linkCreated c attempt link linkId completedAt correlationId now
        (CaseStep.case?_of_inHand inHand)
    · cases hbody
  | reconciled => exact hnone ((Unremarkable.audit rfl).append (.audit rfl))
  | gaveUp =>
    exact hnone ((Unremarkable.attemptUpdate _ _).append (.transition hnil (by simp) (by simp)))
  | ignored event => exact hnone (hclaim event)
  | unmatched event => exact hnone ((hclaim event).append (.audit rfl))
  | detached event => exact hnone (hclaim event)
  | observed d now => exact hnone (.observe d now)
  | recovered d now now' idle known executing paid =>
    rw [Delivery.recoverStmts, bodiesOf_append, List.mem_append] at hbody
    rcases hbody with hbody | hbody
    · -- What is said of the payment is no landmark; the change into RECOVERED is.
      rw [Unremarkable.observe d now id body hbody] at hl
      cases hl
    · rw [bodiesOf_transitionStmts hnil] at hbody
      split at hbody
      · next hid =>
        subst hid
        rw [List.mem_singleton.mp hbody] at hl
        cases hl
        exact .recovered d now now' known paid
      · cases hbody
  | failed d attempt now now' =>
    have hattempt : ∀ st ∈ d.failureStmts attempt, st.table ≠ .auditEvents := fun st hst => by
      rw [d.table_failureStmts hst]
      simp
    exact hnone ((Unremarkable.observe d now).append
      (.transition hattempt (by simp) (by simp)))
  | cycled cycleId body correlationId now op idle report =>
    obtain ⟨_, _, _, _, _, _, _, _, rfl⟩ := report
    exact hnone (.audit rfl)

end Sets

/-! ### Approvals and recoveries -/

section Local

variable {h : List Event} {db db' : Db} {sts : List Stmt} {id : Uuid}

/-- In what a diagnosis says the approval follows the evaluation. -/
theorem Diagnosis.approvedOnPolicy (d : Diagnosis) :
    Throughout ApprovedOnPolicy (bodiesOf id d.stmts) := by
  rw [d.bodiesOf_stmts]
  split
  case isFalse => exact .nil
  refine Throughout.append (.of_forall fun pre y hy happroved => ?_) ?_
  · -- Before the review nothing is approved.
    have hl := landmark?_of_changesTo_approved happroved
    rcases List.mem_cons.mp hy with rfl | hy
    · cases hl
    · rw [d.landmark?_eq_none hy] at hl
      cases hl
  · rw [reviewBodies, Throughout.cons_iff, Throughout.cons_iff]
    refine ⟨fun happroved => (by cases happroved), fun happroved => ?_, .nil⟩
    -- The last thing said is the approval, and the evaluation stands right before it.
    have hnext : d.next.1 = .approved := by simpa [AuditBody.changesTo] using happroved
    obtain ⟨hallow, haction⟩ := Diagnosis.approved_iff.mp hnext
    have hexecutable : d.outcome.recommendation.recommendedAction ∈ EXECUTABLE_ACTIONS := by
      rw [haction]
      decide
    refine .of_cons rfl (fun y hy hrequest => ?_) ⟨_, List.mem_append_right _ List.mem_cons_self,
      by simp [AuditBody.allowsExecution, hallow, hexecutable]⟩
    -- No diagnosis is requested in between.
    have hl := landmark?_of_requestsDiagnosis hrequest
    rcases List.mem_append.mp hy with hy | hy
    · rw [d.landmark?_eq_none hy] at hl
      cases hl
    · rw [List.mem_singleton.mp hy] at hl
      cases hl

/-- In what any transaction says the approval follows the evaluation. -/
theorem Txn.approvedOnPolicy (htxn : Txn h db sts) :
    Throughout ApprovedOnPolicy (bodiesOf id sts) :=
  .of_mem fun y hy happroved => by
    cases htxn.sets hy (landmark?_of_changesTo_approved happroved) with
    | approved _ d => exact d.approvedOnPolicy

/-- A payment in full confirms the link it is about, then and later. -/
theorem Delivery.Known.confirms {d : Delivery} (known : d.Known h db) (paid : d.FullyPaid)
    (he : db.Evolves db') :
    (paymentEventBody d.observed d.event.paymentId).confirms db' d.loaded.recoveryCase.id := by
  -- The link that was seen is still there, with the amount it had.
  obtain ⟨l, hl, hbecomes⟩ := known.linkSeen.evolves he
  have hreference : l.providerReference = d.observed.providerReference :=
    hbecomes.providerReference
  have hcase : l.recoveryCaseId = d.loaded.recoveryCase.id :=
    hbecomes.recoveryCaseId.trans known.caseId.symm
  have hamount : l.amount ≤ d.observed.amountPaid := hbecomes.amount.trans_le paid.2
  rw [paymentEventBody, if_pos paid.1]
  exact List.any_eq_true.mpr ⟨l, Table.mem_of_get? hl, by simp [hreference, hcase, hamount]⟩

/-- In what any transaction says the recovery follows the payment. -/
theorem Txn.recoveredOnPayment (htxn : Txn h db sts) (he : db.Evolves db') :
    Throughout (RecoveredOnPayment db' id) (bodiesOf id sts) :=
  .of_mem fun y hy hrecovered => by
    cases htxn.sets hy (landmark?_of_changesTo_recovered hrecovered) with
    | recovered d now now' known paid =>
      have hnil : ∀ st ∈ ([] : List Stmt), st.table ≠ .auditEvents := by simp
      -- First what is said of the payment, then the change.
      rw [Delivery.recoverStmts, bodiesOf_append, d.bodiesOf_observeStmts,
        bodiesOf_transitionStmts hnil]
      change Throughout _ ((if d.loaded.recoveryCase.id = d.loaded.recoveryCase.id then _ else _) ++
        if d.loaded.recoveryCase.id = d.loaded.recoveryCase.id then _ else _)
      rw [if_pos rfl, if_pos rfl, List.singleton_append, Throughout.cons_iff, Throughout.cons_iff]
      refine ⟨fun hfirst => ?_, fun _ => ⟨_, List.mem_cons_self, known.confirms paid he⟩, .nil⟩
      rw [paymentEventBody, if_pos paid.1] at hfirst
      cases hfirst

end Local

/-! ### Links -/

section Links

variable {H : History} {t u : Tid} {sts : List Stmt} {c : RecoveryCase}

/-- What is in hand after a transaction as it is in the table was in the table before. -/
theorem Lawful.row_of_cons (h : Lawful ((t, .committed sts) :: H)) (hseen : H.replay.CaseSeen c)
    (hrow : (Store.applyAll sts H.replay).recoveryCases.get? c.id = some c) :
    H.replay.recoveryCases.get? c.id = some c := by
  -- Its version has not gone up, so nothing of the row has changed.
  obtain ⟨r, hr, hbefore⟩ := hseen
  obtain ⟨r', hr', hafter⟩ := h.evolves_cons.recoveryCase _ _ hr
  obtain rfl : c = r' := Option.some.inj (hrow.symm.trans hr')
  rw [hr, hbefore.unchanged (le_antisymm hafter.version hbefore.version)]

/-- A transaction that leaves the row alone requests no execution. -/
theorem Lawful.unrequested {y : AuditBody} (h : Lawful ((t, .committed sts) :: H))
    (hbefore : H.replay.recoveryCases.get? c.id = some c)
    (hafter : (Store.applyAll sts H.replay).recoveryCases.get? c.id = some c)
    (hy : y ∈ bodiesOf c.id sts) : ¬ y.requestsExecution := by
  intro hrequest
  obtain ⟨-, permitted, checked⟩ := h.cons_inv
  have hsets := Txn.sets permitted hy (landmark?_of_requestsExecution hrequest)
  generalize hid : c.id = id at hsets
  cases hsets with
  -- The request was of the row that is there, and has moved it on.
  | @executionRequested rest x c' known turns moved =>
    have hrow : H.replay.recoveryCases.get? x.recoveryCase.id = some x.recoveryCase := by
      have hpre : ∀ st ∈ x.claimStmts.take 2, st.table ≠ .recoveryCases := by
        simp [Execution.claimStmts, auditStmt, Stmt.table]
      exact known.caseSeen.of_checkAll hpre (checked _ rfl)
    rw [hid, hrow, Option.some.injEq] at hbefore
    obtain ⟨r, hr, hmoved⟩ := turns.outdated hrow moved
    rw [hbefore] at hr hmoved
    obtain rfl : c = r := Option.some.inj (hafter.symm.trans hr)
    exact lt_irrefl _ hmoved

/-- **As long as a case is as an execution has it in hand, it has been re-checked**, and no
execution of it was requested since. -/
theorem Lawful.recheckedSince (h : Lawful H) (hc : (phase (H.own u)).case? = some c)
    (hrow : H.replay.recoveryCases.get? c.id = some c) :
    RecheckedSince (H.replay.story c.id) := by
  -- By induction on the record: the case has come in hand by the last event, or was in hand.
  induction h using Lawful.induction with
  | refl => cases hc
  | @cons H t e before hlawful ih =>
    rcases hlawful.inHand_cons hc with hold | ⟨x, rfl, rfl, -, cleared, -⟩
    · cases e with
      | committed sts =>
        have hseen := Lawful.caseSeen_of_inHand before hold
        have hbefore := hlawful.row_of_cons hseen hrow
        rw [History.replay_cons, Event.applyTo_committed, story_applyAll]
        refine (ih hold hbefore).append_right (fun y hy hrequest => ?_) ?_
        · -- a request would have moved the case
          exact hlawful.unrequested hbefore hrow hy hrequest
        · rintro since ⟨⟨y, hy, hallows⟩, z, hz, hchanges⟩
          exact ⟨⟨y, List.mem_append_left _ hy, hallows⟩, z, List.mem_append_left _ hz, hchanges⟩
      | _ => exact ih hold hrow
    · -- The case was just claimed: the claim itself is the evidence.
      rw [History.replay_cons, Event.applyTo_committed, story_applyAll, x.bodiesOf_claimStmts]
      have hid : x.recoveryCase.id = x.claimed.id := rfl
      rw [if_pos hid]
      have hclaim : RecheckedSince [.executionRequested x.recoveryCase.status,
          .policyRechecked x.decision.decision x.decision.reasonCodes x.decision.policyVersion,
          .recoveryCaseStatusChanged x.recoveryCase.status .executing none] :=
        .of_cons rfl (by simp [AuditBody.requestsExecution])
          (by simp [AuditBody.recheckAllows, AuditBody.changesTo, cleared.allowed])
      exact hclaim.append_left _

/-- A link comes after the re-check that cleared its execution. -/
theorem Lawful.linkedOnRecheck {id : Uuid} (h : Lawful H) :
    Throughout LinkedOnRecheck (H.replay.story id) := by
  -- By induction on the record; only a transaction that records a link says so.
  induction h with
  | refl => exact .nil
  | @cons H t e before permitted checked _ ih =>
    cases e with
    | committed sts =>
      rw [History.replay_cons, Event.applyTo_committed, story_applyAll]
      refine ih.append (.of_mem fun y hy hlink => ?_)
      cases permitted.sets hy (landmark?_of_createsLink hlink) with
      | linkCreated c attempt link linkId completedAt correlationId now inHand =>
        -- The record of the link was matched, so the case is as it was in hand.
        have hrow := Lawful.row_of_record before inHand (checked _ rfl)
        have hrechecked := Lawful.recheckedSince before inHand hrow
        rw [bodiesOf_recordStmts, if_pos rfl, Throughout.cons_iff]
        exact ⟨fun _ => by rwa [List.append_nil], .nil⟩
    | _ => exact ih

end Links

/-! ### Whole runs -/

/-- What each transaction has recorded of a case, in commit order. -/
def History.chapters (caseId : Uuid) : History → List (List AuditBody)
  | [] => []
  | (_, .committed sts) :: H => chapters caseId H ++ [bodiesOf caseId sts]
  | _ :: H => chapters caseId H

section Whole

variable {H : History} {id : Uuid}

/-- The story of a case is told chapter by chapter. -/
theorem Lawful.story_eq (h : Lawful H) : H.replay.story id = (H.chapters id).flatten := by
  induction h with
  | refl => rfl
  | @cons H t e before permitted checked _ ih =>
    cases e with
    | committed sts =>
      rw [History.replay_cons, Event.applyTo_committed, story_applyAll, ih, History.chapters,
        List.flatten_append]
      simp
    | _ => exact ih

/-- An approval follows its evaluation in the whole story. -/
theorem Lawful.approvedOnPolicy (h : Lawful H) : Throughout ApprovedOnPolicy (H.replay.story id) := by
  induction h with
  | refl => exact .nil
  | @cons H t e before permitted checked _ ih =>
    cases e with
    | committed sts =>
      rw [History.replay_cons, Event.applyTo_committed, story_applyAll]
      -- An approval is judged within its own transaction.
      exact ih.append_of_local (fun pre y hy happroved => (hy happroved).append_left _)
        permitted.approvedOnPolicy
    | _ => exact ih

/-- A recovery follows its payment in its own chapter. -/
theorem Lawful.recoveredOnPayment {db : Db} (h : Lawful H) (he : H.replay.Evolves db) :
    ∀ chapter ∈ H.chapters id, Throughout (RecoveredOnPayment db id) chapter := by
  induction h with
  | refl => simp [History.chapters]
  | @cons H t e before permitted checked _ ih =>
    have hlawful : Lawful ((t, e) :: H) := .cons before permitted checked trivial
    -- Links are judged by the final database, which the earlier ones evolve to.
    have hbefore := hlawful.evolves_cons.trans he
    cases e with
    | committed sts =>
      intro chapter hchapter
      rcases List.mem_append.mp hchapter with hchapter | hchapter
      · exact ih hbefore chapter hchapter
      · rw [List.mem_singleton.mp hchapter]
        exact permitted.recoveredOnPayment hbefore
    | _ => exact ih hbefore

end Whole

/-- **Every decision has its evidence.** In every reachable state, whatever the
interleaving, the story of a case approves it only on a policy evaluation that allows it,
records a link only on a re-check that clears it, and recovers it only on a payment,
confirmed in the same transaction, that covers the link it names. -/
theorem decisions_evidenced {w : World} (hw : Reachable w) (caseId : Uuid) :
    Throughout ApprovedOnPolicy (w.shared.db.story caseId) ∧
      Throughout LinkedOnRecheck (w.shared.db.story caseId) ∧
      w.shared.db.story caseId = (History.chapters caseId w.shared.history).flatten ∧
      ∀ chapter ∈ History.chapters caseId w.shared.history,
        Throughout (RecoveredOnPayment w.shared.db caseId) chapter := by
  have hlawful := Reachable.lawful hw
  rw [Reachable.db_eq hw]
  exact ⟨hlawful.approvedOnPolicy, hlawful.linkedOnRecheck, hlawful.story_eq,
    hlawful.recoveredOnPayment (.refl _)⟩

set_option maxRecDepth 10000 in
theorem decisions_evidenced_paid :
    ((World.empty.after Sample.paid).shared.db.story 3).any (AuditBody.changesTo .recovered) ∧
      (Throughout ApprovedOnPolicy ((World.empty.after Sample.paid).shared.db.story 3) ∧
        Throughout LinkedOnRecheck ((World.empty.after Sample.paid).shared.db.story 3) ∧
        (World.empty.after Sample.paid).shared.db.story 3 =
          (History.chapters 3 (World.empty.after Sample.paid).shared.history).flatten ∧
        ∀ chapter ∈ History.chapters 3 (World.empty.after Sample.paid).shared.history,
          Throughout (RecoveredOnPayment (World.empty.after Sample.paid).shared.db 3) chapter) :=
  ⟨by decide +kernel, decisions_evidenced (World.reachable_after _) 3⟩

end RecoverAI
