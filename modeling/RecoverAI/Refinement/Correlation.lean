import RecoverAI.Framework.Confinement
import RecoverAI.Refinement.Common
import RecoverAI.Services.System

/-!
# The correlation ids of the services

Which correlation ids the statements of an operation carry does not depend on what the
database, the provider or the AI service answer. `Service.Writes P` says that every
statement a service flushes satisfies `P`, on every path; each service is followed once,
with the statements recorded under the id it was called with. A cycle hands each case it
takes up an id of its own (`caseCorrelation`), so its statements carry one of two kinds
of id (`Op.Records`).
-/

namespace RecoverAI

open Interleave

/-- The id a statement writes into a column `correlation_id`. An update writes the columns
that have changed. -/
def Stmt.correlationId? : Stmt → Option String
  | .insertAuditEvent row => row.correlationId
  | .insertAttempt row => row.correlationId
  | .updateAttempt before after =>
    if after.correlationId = before.correlationId then none else after.correlationId
  | _ => none

/-- The correlation ids a statement writes satisfy `R`. -/
def Stmt.RecordedUnder (R : String → Prop) (st : Stmt) : Prop :=
  ∀ id, st.correlationId? = some id → R id

/-- The statements of a command satisfy `P`. -/
def Cmd.Writes (P : Stmt → Prop) : Cmd → Prop
  | .flush statements => ∀ st ∈ statements, P st
  | _ => True

/-- Every statement a service flushes satisfies `P`. -/
def Service.Writes {α : Type} (P : Stmt → Prop) (x : Service α) : Prop :=
  x.run.Performs (Cmd.Writes P)

/-! ### Rules -/

namespace Service.Writes

variable {P P' : Stmt → Prop} {α β : Type} {x : Service α}

theorem pure {a : α} : Service.Writes P (Pure.pure a : Service α) := trivial

theorem throw {e : Raised} : Service.Writes P (MonadExcept.throw e : Service α) := trivial

theorem raise {e : RecoverAIError} : Service.Writes P (Service.raise e : Service α) := trivial

/-- **Sequencing.** -/
theorem bind {f : α → Service β} (h : x.Writes P) (hf : ∀ a, (f a).Writes P) :
    (x >>= f).Writes P := by
  unfold Service.Writes
  rw [ExceptT.run_bind]
  refine Prog.Performs.bind h fun r => ?_
  -- what was raised is raised on, and flushes nothing more
  cases r with
  | ok a => exact hf a
  | error e => trivial

theorem map {f : α → β} (h : x.Writes P) : (f <$> x).Writes P := by
  rw [← bind_pure_comp]
  exact h.bind fun _ => pure

/-- A handler is followed like the rest. -/
theorem tryCatch {f : Raised → Service α} (h : x.Writes P) (hf : ∀ e, (f e).Writes P) :
    (MonadExcept.tryCatch x f).Writes P := by
  have hrun := run_tryCatch_bind x f Prog.done
  rw [show Prog.done = (Pure.pure : Except Raised α → Prog sig _) from rfl, bind_pure] at hrun
  unfold Service.Writes
  rw [hrun]
  refine Prog.Performs.bind h fun r => ?_
  cases r with
  | ok a => trivial
  | error e =>
    change Prog.Performs _ ((f e).run >>= Pure.pure)
    rw [bind_pure]
    exact hf e

theorem ite {c : Prop} [Decidable c] {y : Service α} (hx : x.Writes P) (hy : y.Writes P) :
    (if c then x else y).Writes P := by
  split
  · exact hx
  · exact hy

/-- A command that is no flush writes nothing. -/
theorem perform {c : Cmd} (h : c.Writes P) : (Service.perform c).Writes P :=
  ⟨h, fun _ => trivial⟩

theorem select {q : Query} : (Service.select q).Writes P := perform trivial

theorem commit : Service.commit.Writes P := perform trivial

theorem rollback : Service.rollback.Writes P := perform trivial

theorem now : Service.now.Writes P := perform trivial

theorem uuid4 : Service.uuid4.Writes P := perform trivial

theorem getSettings : Service.getSettings.Writes P := perform trivial

theorem flush {statements : List Stmt} (h : ∀ st ∈ statements, P st) :
    (Service.flush statements).Writes P := by
  refine bind (perform h) fun r => ?_
  cases r with
  -- a refused flush has flushed nothing, and raises
  | ok _ => exact pure
  | error e => cases e <;> exact throw

theorem ofExcept {r : Except RecoverAIError α} : (Service.ofExcept r).Writes P := by
  cases r with
  | ok a => exact pure
  | error e => exact raise

theorem scalarOneOrNone : ∀ rows : List α, (Service.scalarOneOrNone rows).Writes P
  | [] => pure
  | [_] => pure
  | _ :: _ :: _ => throw

/-- The guard of a step rolls back, and flushes nothing. -/
theorem guardAgainstConcurrentModification (h : x.Writes P) :
    (RecoverAI.guardAgainstConcurrentModification x).Writes P := by
  refine h.tryCatch fun e => ?_
  cases e with
  -- the rollback before the domain error flushes nothing either
  | staleData => exact rollback.bind fun _ => raise
  | _ => exact throw

theorem catchRecoverAI (h : x.Writes P) : (RecoverAI.catchRecoverAI x).Writes P := by
  refine h.map.tryCatch fun e => ?_
  cases e with
  | recoverAI e => exact pure
  | _ => exact throw

end Service.Writes

/-! ### The services, under one correlation id -/

section Services

variable {R : String → Prop} {correlationId : String}

/-- A statement that writes no correlation id. -/
theorem Stmt.recordedUnder_of_none {st : Stmt} (h : st.correlationId? = none) :
    st.RecordedUnder R := by
  intro id hid
  rw [h] at hid
  cases hid

/-- A statement that writes the given one. -/
theorem Stmt.recordedUnder_of_eq {st : Stmt} (h : st.correlationId? = some correlationId)
    (hR : R correlationId) : st.RecordedUnder R := by
  intro id hid
  rw [h] at hid
  obtain rfl := Option.some.inj hid
  exact hR

/-- The update of an attempt whose correlation id stays what it was. -/
theorem RecoveryAttempt.recordedUnder_pendingUpdate {before after : RecoveryAttempt}
    (h : after.correlationId = before.correlationId) :
    ∀ st ∈ before.pendingUpdate after, st.RecordedUnder R := by
  intro st hst
  rw [eq_of_mem_pendingUpdate hst]
  exact Stmt.recordedUnder_of_none (if_pos h)

/-- A case has no such column. -/
theorem RecoveryCase.recordedUnder_pendingUpdate (before after : RecoveryCase) :
    ∀ st ∈ before.pendingUpdate after, st.RecordedUnder R := by
  intro st hst
  rw [eq_of_mem_pendingUpdate hst]
  exact Stmt.recordedUnder_of_none rfl

/-- Nor has a link. -/
theorem RecoveryPaymentRequest.recordedUnder_pendingUpdate (before after : RecoveryPaymentRequest) :
    ∀ st ∈ before.pendingUpdate after, st.RecordedUnder R := by
  intro st hst
  rw [eq_of_mem_pendingUpdate hst]
  exact Stmt.recordedUnder_of_none rfl

variable (hR : R correlationId)

include hR

/-- An audit event is recorded under the id it is given. -/
theorem writes_recordEvent {entity : AuditEntity} {body : AuditBody} {actorType : ActorType}
    {dirty : List Stmt} (hdirty : ∀ st ∈ dirty, st.RecordedUnder R) :
    (recordEvent entity body actorType correlationId dirty).Writes (Stmt.RecordedUnder R) := by
  refine .bind .now fun createdAt => .flush fun st hst => ?_
  -- the pending statements, and the audit event itself
  rcases List.mem_append.mp hst with hst | hst
  · exact hdirty st hst
  · obtain rfl := List.mem_singleton.mp hst
    exact Stmt.recordedUnder_of_eq rfl hR

/-- An audit event that is flushed alone. -/
theorem writes_audit {entity : AuditEntity} {body : AuditBody} {actorType : ActorType} :
    (recordEvent entity body actorType correlationId []).Writes (Stmt.RecordedUnder R) :=
  writes_recordEvent hR fun _ hst => absurd hst List.not_mem_nil

/-- `_transition`: the case, and the event that tells of it. -/
theorem writes_transition {before recoveryCase : RecoveryCase} {target : RecoveryCaseStatus}
    {reason : Option String} {dirty : List Stmt} (hdirty : ∀ st ∈ dirty, st.RecordedUnder R) :
    (transition before recoveryCase target correlationId reason dirty).Writes
      (Stmt.RecordedUnder R) := by
  refine .bind .ofExcept fun _ => .bind (.flush ?_) fun _ =>
    .bind (writes_audit hR) fun _ => .pure
  -- the update of the case comes first, and has no correlation id to write
  rintro st (_ | ⟨_, hst⟩)
  · exact Stmt.recordedUnder_of_none rfl
  · exact hdirty st hst

/-- A transition that flushes nothing but the case. -/
theorem writes_move {before recoveryCase : RecoveryCase} {target : RecoveryCaseStatus}
    {reason : Option String} :
    (transition before recoveryCase target correlationId reason []).Writes
      (Stmt.RecordedUnder R) :=
  writes_transition hR fun _ hst => absurd hst List.not_mem_nil

/-! Ingestion -/

/-- `_create_case`. -/
theorem writes_createCase {payment : Payment} :
    (createCase payment correlationId).Writes (Stmt.RecordedUnder R) := by
  refine .bind .uuid4 fun id => .bind .now fun createdAt => .bind (.flush ?_) fun _ =>
    .bind (writes_audit hR) fun _ => .pure
  -- a case has no correlation id of its own
  intro st hst
  obtain rfl := List.mem_singleton.mp hst
  exact Stmt.recordedUnder_of_none rfl

/-- `create_recovery_case_for_payment`, which may find a case and create none. -/
theorem writes_createRecoveryCaseForPayment {paymentId : Uuid} :
    (createRecoveryCaseForPayment paymentId correlationId).Writes (Stmt.RecordedUnder R) := by
  refine .bind .select fun payment => ?_
  split
  · refine .ite (.bind .raise fun _ => ?_) ?_
    -- what follows the check of the status, reached on both branches of the `if`
    all_goals
      refine .bind .select fun existing => ?_
      cases existing with
      | some existing => exact .pure
      | none => exact .bind (writes_createCase hR) fun _ => .bind .commit fun _ => .pure
  · exact .raise

omit hR in
/-- `_find_or_create_customer`. -/
theorem writes_findOrCreateCustomer {externalReference : Option String} :
    (findOrCreateCustomer externalReference).Writes (Stmt.RecordedUnder R) := by
  -- a reference that is looked up, or none
  have hfind : (findCustomer externalReference).Writes (Stmt.RecordedUnder R) := by
    unfold findCustomer
    split
    · exact .bind .select fun rows => .scalarOneOrNone rows
    · exact .pure
  refine .bind hfind fun customer => ?_
  cases customer with
  | some customer => exact .pure
  | none =>
    refine .bind .uuid4 fun id => .bind (.flush ?_) fun _ => .pure
    intro st hst
    obtain rfl := List.mem_singleton.mp hst
    exact Stmt.recordedUnder_of_none rfl

/-- The part of `ingest_payment` for a new payment. -/
theorem writes_ingestNewPayment {request : PaymentIngestRequest} :
    (ingestNewPayment request correlationId).Writes (Stmt.RecordedUnder R) := by
  have hcase : ∀ payment, (createCaseIfFailed request payment correlationId).Writes
      (Stmt.RecordedUnder R) := fun payment => .ite (writes_createCase hR).map .pure
  refine .bind writes_findOrCreateCustomer fun customer => .bind .uuid4 fun id =>
    .bind .now fun createdAt => .bind .now fun updatedAt => .bind (.flush ?_) fun _ =>
    .bind (writes_audit hR) fun _ => .bind (hcase _) fun _ => .bind .commit fun _ => .pure
  -- customer and payment carry none
  intro st hst
  simp only [List.mem_cons, List.not_mem_nil, or_false] at hst
  rcases hst with rfl | rfl <;> exact Stmt.recordedUnder_of_none rfl

/-- `ingest_payment`: a payment that is known already is only audited. -/
theorem writes_ingestPayment {request : PaymentIngestRequest} :
    (ingestPayment request correlationId).Writes (Stmt.RecordedUnder R) := by
  unfold ingestPayment
  split
  · exact writes_ingestNewPayment hR
  · refine .bind .select fun existing => ?_
    cases existing with
    | none => exact writes_ingestNewPayment hR
    | some existing =>
      exact .bind .select fun _ => .bind (writes_audit hR) fun _ => .bind .commit fun _ => .pure

/-- The loop of `discover_failed_payments`, by recursion on the payments. -/
theorem writes_createCases : ∀ payments : List Payment,
    (createCases correlationId payments).Writes (Stmt.RecordedUnder R)
  | [] => .pure
  | _ :: payments =>
    .bind (writes_createCase hR) fun _ => .bind (writes_createCases payments) fun _ => .pure

theorem writes_discoverFailedPayments {limit : Nat} :
    (discoverFailedPayments limit correlationId).Writes (Stmt.RecordedUnder R) :=
  .bind .select fun payments => .bind .select fun _ => .bind (writes_createCases hR payments)
    fun _ => .bind .commit fun _ => .pure

/-! Diagnosis -/

/-- `_evaluate_eligibility` is a transition. -/
theorem writes_evaluateEligibility {recoveryCase : RecoveryCase} {payment : Payment} :
    (evaluateEligibility recoveryCase payment correlationId).Writes (Stmt.RecordedUnder R) :=
  writes_move hR

omit hR in
theorem writes_readPolicyConfig : readPolicyConfig.Writes (Stmt.RecordedUnder R) :=
  .bind .getSettings fun _ => .pure

/-- The end of a diagnosis: the review of the policy and its outcome. -/
theorem writes_reviewRecommendation {recoveryCase : RecoveryCase} {payment : Payment}
    {outcome : AIOutcome} {policyConfig : Option PolicyConfig} :
    (reviewRecommendation recoveryCase payment outcome correlationId policyConfig).Writes
      (Stmt.RecordedUnder R) := by
  -- the configuration is given, or read from the settings; neither writes
  have hconfig : (policyConfigOrSettings policyConfig).Writes (Stmt.RecordedUnder R) := by
    cases policyConfig with
    | some config => exact .pure
    | none => exact writes_readPolicyConfig
  exact .bind hconfig fun config => .bind .now fun now =>
    .bind (writes_recordEvent hR (RecoveryCase.recordedUnder_pendingUpdate _ _)) fun _ =>
    .bind (writes_move hR) fun _ => .bind .commit fun _ => .pure

/-- The middle of a diagnosis, from the status DIAGNOSING to the recommendation. -/
theorem writes_diagnoseEligible {loaded : CaseForDiagnosis} {recoveryCase : RecoveryCase}
    {policyConfig : Option PolicyConfig} :
    (diagnoseEligible loaded recoveryCase correlationId policyConfig).Writes
      (Stmt.RecordedUnder R) := by
  have hrecommendation : ∀ context, (getRecommendation context).Writes
      (Stmt.RecordedUnder R) := by
    -- the AI is asked, and whatever it raises is raised on
    intro context
    refine .bind (.perform trivial) fun answer => ?_
    cases answer with
    | ok outcome => exact .pure
    | error message => exact .throw
  exact .bind (writes_move hR) fun _ => .bind .now fun _ => .bind (hrecommendation _) fun _ =>
    .bind (writes_audit hR) fun _ => .bind (writes_audit hR) fun _ =>
    .bind (writes_move hR) fun _ => .bind (writes_move hR) fun _ =>
    writes_reviewRecommendation hR

/-- `diagnose_recovery_case`. -/
theorem writes_diagnoseRecoveryCase {caseId : Uuid} {policyConfig : Option PolicyConfig} :
    (diagnoseRecoveryCase caseId correlationId policyConfig).Writes (Stmt.RecordedUnder R) := by
  refine .guardAgainstConcurrentModification (.bind .select fun loaded => ?_)
  split
  · refine .ite (.bind .ofExcept fun _ => ?_) ?_
    -- what follows the check of the status, reached on both branches of the `if`
    all_goals
      refine .bind (writes_audit hR) fun _ => .ite ?_ (writes_diagnoseEligible hR)
      exact .bind (writes_evaluateEligibility hR) fun _ =>
        .ite (.bind .commit fun _ => .pure) (writes_diagnoseEligible hR)
  · exact .raise

/-! Execution -/

/-- `_escalate`. -/
theorem writes_escalate {before recoveryCase : RecoveryCase} {reason : String}
    {decision : Option PolicyDecision} :
    (escalate before recoveryCase reason correlationId decision).Writes
      (Stmt.RecordedUnder R) :=
  .bind (writes_move hR) fun _ => .bind .commit fun _ => .pure

/-- `_record_payment_link_created`. -/
theorem writes_recordPaymentLinkCreated {recoveryCase : RecoveryCase} {attempt : RecoveryAttempt}
    {link : PaymentLinkSnapshot} :
    (recordPaymentLinkCreated recoveryCase attempt link correlationId).Writes
      (Stmt.RecordedUnder R) := by
  refine .bind .now fun completedAt => .bind .uuid4 fun id => .bind (.flush ?_) fun _ =>
    .bind (writes_audit hR) fun _ => .bind .commit fun _ => .pure
  -- three kinds of statements: the case, the attempt, whose id is kept, and the link
  intro st hst
  rcases List.mem_cons.mp hst with rfl | hst
  · exact Stmt.recordedUnder_of_none rfl
  rcases List.mem_append.mp hst with hst | hst
  · refine RecoveryAttempt.recordedUnder_pendingUpdate ?_ st hst
    rfl
  · obtain rfl := List.mem_singleton.mp hst
    exact Stmt.recordedUnder_of_none rfl

/-- `_handle_definite_failure`. -/
theorem writes_handleDefiniteFailure {recoveryCase : RecoveryCase} {attempt : RecoveryAttempt}
    {error : PaymentProviderError} {failureCategory : Option ProviderFailureCategory}
    {reason : Option String} :
    (handleDefiniteFailure recoveryCase attempt error correlationId failureCategory reason).Writes
      (Stmt.RecordedUnder R) :=
  .bind .now fun _ => .bind (.flush (RecoveryAttempt.recordedUnder_pendingUpdate rfl)) fun _ =>
    writes_escalate hR

/-- `_handle_ambiguous_creation`: audited before the search and after it. -/
theorem writes_handleAmbiguousCreation {recoveryCase : RecoveryCase} {attempt : RecoveryAttempt}
    {referenceId : String} {error : PaymentProviderError} :
    (handleAmbiguousCreation recoveryCase attempt referenceId error correlationId).Writes
      (Stmt.RecordedUnder R) := by
  -- the search for the link writes nothing, found or not
  have hreconcile : (reconcile referenceId).Writes (Stmt.RecordedUnder R) := by
    refine .bind (.perform trivial) fun answer => ?_
    rcases answer with (_ | _) | found
    · exact .pure
    · exact .throw
    · exact .pure
  refine .bind (writes_audit hR) fun _ => .bind hreconcile fun ⟨found, _⟩ =>
    .bind (writes_audit hR) fun _ => .bind .commit fun _ => ?_
  cases found with
  | some link => exact writes_recordPaymentLinkCreated hR
  | none => exact writes_handleDefiniteFailure hR

/-- The part of `_create_payment_link` behind its commit. -/
theorem writes_callProvider {recoveryCase : RecoveryCase} {payment : Payment}
    {attempt : RecoveryAttempt} {amount expiryHours : Int} {executionReference : String} :
    (callProvider recoveryCase payment attempt amount expiryHours executionReference
      correlationId).Writes (Stmt.RecordedUnder R) := by
  refine .ite (.bind .raise fun _ => ?_) ?_
  -- the check of the amount either raises or leads on to the call
  all_goals
    refine .bind .now fun now => .bind (.ite .throw .pure) fun expireBy =>
      .bind (.perform trivial) fun answer => ?_
    rcases answer with (error | error) | link
    · exact .ite (writes_handleAmbiguousCreation hR) (writes_handleDefiniteFailure hR)
    · exact .throw
    · exact writes_recordPaymentLinkCreated hR

/-- `_create_payment_link`. -/
theorem writes_createPaymentLink {recoveryCase : RecoveryCase} {payment : Payment} :
    (createPaymentLink recoveryCase payment correlationId).Writes (Stmt.RecordedUnder R) := by
  refine .bind .getSettings fun settings => .bind .uuid4 fun reference => .bind .now fun _ =>
    .bind .uuid4 fun id => .bind .now fun _ => .bind (.flush ?_) fun _ =>
    .bind (writes_audit hR) fun _ => .bind .commit fun _ => writes_callProvider hR
  -- the attempt carries the id of the execution
  intro st hst
  obtain rfl := List.mem_singleton.mp hst
  exact Stmt.recordedUnder_of_eq rfl hR

/-- `execute_recovery_case`. -/
theorem writes_executeRecoveryCase {caseId : Uuid} :
    (executeRecoveryCase caseId correlationId).Writes (Stmt.RecordedUnder R) := by
  -- what is only read on the way to the policy
  have haction : ∀ c, (recommendedActionOf c).Writes (Stmt.RecordedUnder R) := by
    intro c
    unfold recommendedActionOf
    split
    · exact .pure
    · exact .throw
  have hrecheck : ∀ c p, (recheckPolicy c p).Writes (Stmt.RecordedUnder R) := fun c p =>
    .bind writes_readPolicyConfig fun _ => .bind .now fun _ => .bind (haction c) fun _ => .pure
  refine .guardAgainstConcurrentModification (.bind .select fun loaded => ?_)
  split
  · refine .bind .ofExcept fun _ => .bind (writes_audit hR) fun _ => .bind (hrecheck _ _) fun _ =>
      .bind (writes_audit hR) fun _ => .bind (writes_move hR) fun _ => .ite (writes_escalate hR) ?_
    refine .bind (haction _) fun action => .ite (writes_escalate hR) ?_
    exact .bind .commit fun _ => writes_createPaymentLink hR
  · exact .raise

/-! Deliveries -/

omit hR in
/-- `_claim_event`: the ledger has no correlation id. -/
theorem writes_claimEvent {event : ParsedWebhookEvent} :
    (claimEvent event).Writes (Stmt.RecordedUnder R) := by
  -- the key is looked up, then claimed
  refine .bind .select fun known => .ite .pure (.tryCatch (.bind (.flush ?_) fun _ => .pure) ?_)
  · intro st hst
    obtain rfl := List.mem_singleton.mp hst
    exact Stmt.recordedUnder_of_none rfl
  · -- a key that is taken is a duplicate; any other exception goes on
    intro e
    cases e with
    | integrityError => exact .bind .rollback fun _ => .pure
    | _ => exact .throw

/-- The end of `_apply_payment_link_event`: the case and its attempt. -/
theorem writes_settleCase {loaded : CaseForExecution} {paymentRequest : RecoveryPaymentRequest} :
    (settleCase loaded paymentRequest correlationId).Writes (Stmt.RecordedUnder R) := by
  -- the attempt was loaded with the case, or is selected by itself
  have hattempt : (getAttempt loaded.attempts paymentRequest.recoveryAttemptId).Writes
      (Stmt.RecordedUnder R) := by
    unfold getAttempt
    split
    · exact .pure
    · exact .select
  refine .bind hattempt fun attempt => .ite (.bind (writes_move hR) fun _ => ?_)
    (.bind (writes_transition hR ?_) fun _ => ?_)
  · exact .bind .commit fun _ => .pure
  · -- the status of the attempt is written with the case, if there is an attempt
    cases attempt with
    | some attempt => exact RecoveryAttempt.recordedUnder_pendingUpdate rfl
    | none => exact fun _ hst => absurd hst List.not_mem_nil
  · exact .bind .commit fun _ => .pure

/-- `_apply_payment_link_event`. -/
theorem writes_applyPaymentLinkEvent {event : ParsedWebhookEvent} {paymentLinkId : String} :
    (applyPaymentLinkEvent event paymentLinkId correlationId).Writes (Stmt.RecordedUnder R) := by
  -- a status that is none of the known ones raises
  have hstatus : ∀ status, (linkStatusOf status).Writes (Stmt.RecordedUnder R) := by
    intro status
    unfold linkStatusOf
    split
    · exact .pure
    · exact .throw
  refine .bind .select fun link => ?_
  split
  · refine .bind .select fun loaded => ?_
    -- a link without its case: the claim of the key is committed alone
    split
    · refine .bind (hstatus _) fun status => .bind (writes_recordEvent hR
        (RecoveryPaymentRequest.recordedUnder_pendingUpdate _ _)) fun _ => .ite ?_ ?_
      · exact .bind .commit fun _ => .pure
      · exact writes_settleCase hR
    · exact .bind .commit fun _ => .pure
  · exact .bind (writes_audit hR) fun _ => .bind .commit fun _ => .pure

/-- `process_webhook_event`. -/
theorem writes_processWebhookEvent {event : ParsedWebhookEvent} :
    (processWebhookEvent event correlationId).Writes (Stmt.RecordedUnder R) := by
  refine .bind writes_claimEvent fun claimed => .ite .pure ?_
  -- an event without a link id has nothing to apply
  split
  · exact .bind .commit fun _ => .pure
  · exact .ite (.bind .commit fun _ => .pure)
      (.bind (.guardAgainstConcurrentModification (writes_applyPaymentLinkEvent hR))
        fun _ => .pure)

end Services

/-! ### Cycles -/

section Cycles

variable {R : String → Prop} {correlationId : String}

/-- The reads of a cycle write nothing. -/
theorem writes_collectCases {limit : Nat} : ∀ (statuses : List RecoveryCaseStatus)
    (collected : List Uuid),
    (collectCases limit statuses collected).Writes (Stmt.RecordedUnder R)
  | [], _ => .pure
  | _ :: statuses, _ =>
    .ite .pure (.bind .select fun _ => writes_collectCases statuses _)

theorem writes_currentStatus {caseId : Uuid} :
    (currentStatus caseId).Writes (Stmt.RecordedUnder R) := by
  refine .bind .select fun recoveryCase => ?_
  cases recoveryCase <;> exact .pure

variable (hcase : ∀ caseId, R (caseCorrelation correlationId caseId))

include hcase

/-- An execution inside a cycle is recorded under the id made for its case. -/
theorem writes_executeInCycle {caseId : Uuid} {diagnosed : Bool} :
    (executeInCycle caseId (caseCorrelation correlationId caseId) diagnosed).Writes
      (Stmt.RecordedUnder R) := by
  refine .bind (.catchRecoverAI (writes_executeRecoveryCase (hcase caseId))) fun r => ?_
  -- a domain error costs a look at the case, nothing else
  cases r with
  | ok execution => exact .pure
  | error e => exact .bind writes_currentStatus fun _ => .pure

/-- `_process_case`. -/
theorem writes_processCase {caseId : Uuid} {autoExecute : Bool} {budget : Nat} :
    (processCase caseId correlationId autoExecute budget).Writes (Stmt.RecordedUnder R) := by
  refine .bind (.catchRecoverAI (writes_diagnoseRecoveryCase (hcase caseId))) fun r => ?_
  cases r with
  | ok diagnosis =>
    -- only an approved case goes on to be executed, under the same id
    exact .ite .pure (.ite .pure (.ite .pure (writes_executeInCycle hcase)))
  | error e => exact .bind writes_currentStatus fun _ => .pure

/-- Step 2 of a cycle, by recursion on the candidates. -/
theorem writes_processCases {autoExecute : Bool} : ∀ (caseIds : List Uuid) (budget : Nat),
    (processCases correlationId autoExecute caseIds budget).Writes (Stmt.RecordedUnder R)
  | [], _ => .pure
  | _ :: caseIds, _ =>
    .bind (writes_processCase hcase) fun _ =>
      .bind (writes_processCases caseIds _) fun _ => .pure

/-- The loop of step 3, by recursion on the backlog. -/
theorem writes_drainBacklog : ∀ (caseIds : List Uuid) (budget : Nat),
    (drainBacklog correlationId caseIds budget).Writes (Stmt.RecordedUnder R)
  | [], _ => .pure
  | _ :: caseIds, _ =>
    .ite .pure (.bind (writes_executeInCycle hcase) fun _ =>
      .bind (writes_drainBacklog caseIds _) fun _ => .pure)

theorem writes_drainApproved {autoExecute : Bool} {remaining : Nat}
    {processed : List CycleCaseOutcome} :
    (drainApproved correlationId autoExecute remaining processed).Writes
      (Stmt.RecordedUnder R) :=
  .ite (.bind (.bind .select fun _ => .pure) fun backlog =>
    writes_drainBacklog hcase backlog remaining) .pure

/-- `run_recovery_cycle`: its own id around the cases, one for each of them in between. -/
theorem writes_runRecoveryCycle (hR : R correlationId) {budget : CycleBudget} :
    (runRecoveryCycle budget correlationId).Writes (Stmt.RecordedUnder R) :=
  .bind .uuid4 fun _ => .bind .now fun _ => .bind (writes_discoverFailedPayments hR) fun _ =>
    .bind (.bind (writes_collectCases _ _) fun _ => .pure) fun candidates =>
    .bind (writes_processCases hcase candidates _) fun ⟨_, _⟩ =>
    .bind (writes_drainApproved hcase) fun _ => .bind .now fun _ =>
    .bind (writes_audit hR) fun _ => .bind .commit fun _ => .pure

end Cycles

/-! ### Operations -/

namespace Op

/-- The correlation id an operation was started with. -/
def correlationId : Op → String
  | .ingest _ correlationId => correlationId
  | .createCase _ correlationId => correlationId
  | .discover _ correlationId => correlationId
  | .diagnose _ correlationId => correlationId
  | .execute _ correlationId => correlationId
  | .webhook _ correlationId => correlationId
  | .cycle _ correlationId => correlationId

/-- The operation is a recovery cycle. -/
def isCycle : Op → Bool
  | .cycle _ _ => true
  | _ => false

/-- The ids an operation records under: its own and, in a cycle, one for each case. -/
def Records (op : Op) (id : String) : Prop :=
  id = op.correlationId ∨ op.isCycle ∧ ∃ caseId, id = caseCorrelation op.correlationId caseId

/-- **Every statement of an operation is recorded under an id of the operation.** -/
theorem writes_service (op : Op) : op.service.Writes (Stmt.RecordedUnder op.Records) := by
  have hown : op.Records op.correlationId := .inl rfl
  -- each operation uses its own id, except that a cycle makes one for each case
  cases op with
  | ingest request correlationId => exact (writes_ingestPayment hown).map
  | createCase paymentId correlationId => exact (writes_createRecoveryCaseForPayment hown).map
  | discover limit correlationId => exact (writes_discoverFailedPayments hown).map
  | diagnose caseId correlationId => exact (writes_diagnoseRecoveryCase hown).map
  | execute caseId correlationId => exact (writes_executeRecoveryCase hown).map
  | webhook event correlationId => exact (writes_processWebhookEvent hown).map
  | cycle budget correlationId =>
    exact (writes_runRecoveryCycle (fun caseId => .inr ⟨rfl, caseId, rfl⟩) hown).map

end Op

end RecoverAI
