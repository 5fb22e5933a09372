import RecoverAI.Refinement.Discipline
import RecoverAI.Refinement.Diagnosis

/-!
# The services keep the discipline

Each service is followed once, from the session it is called with. Diagnosis and execution
start with nothing open and, when they return, leave nothing open; in between they hold the
row of their own case, an attempt before it at most. A delivery holds its claim, then its
link, then the case. A sweep holds the rows of the cases it has opened so far.

A domain error in the middle of a transaction would leave the case locked while the next
one is taken up. The services raise none: the checks of a transition can only fail on the
status that was loaded, before anything is flushed, so `validateTransition` is evaluated along
the way. What a remote party raises is part of what the discipline expects of its answer.
-/

namespace RecoverAI

open Interleave Service

variable {op : Op} {x : Session} {correlationId : String}

/-! ### Audit events and transitions -/

/-- An audit event with what is written along with it. A change of a status is recorded only while
the row of the case is locked. -/
theorem keeps_recordEvent {Q : Unit → Session → Prop} {entity : AuditEntity} {body : AuditBody}
    {actorType : ActorType} {dirty : List Stmt}
    (horder : Locking.InOrder RowKey.rank op.sweeps x.keys (keysOf dirty))
    (hdirty : ∀ st ∈ dirty, st.table ≠ .auditEvents)
    (hchange : body.isChange = true →
      ∃ caseId, entity = .recoveryCase caseId ∧ .recoveryCase caseId ∈ x.keys)
    (h : ∀ t, Q () (x.flushed (dirty ++ [auditStmt entity body actorType correlationId t]))) :
    (recordEvent entity body actorType correlationId dirty).Keeps op Q x := by
  -- the clock is read, so the session is stamped with the time of the event
  refine .bind (.now fun t => .flush ?_ ?_ (h t))
  · rw [keysOf_append]
    exact horder.append .nil
  · -- the event is the one of this call
    have hrows : rowsOf (dirty ++ [auditStmt entity body actorType correlationId t]) =
        [{ entity, body, actorType, correlationId := some correlationId, createdAt := t }] := by
      rw [rowsOf_append, rowsOf_of_tables hdirty]
      rfl
    change Session.Audits _ (dirty ++ [auditStmt entity body actorType correlationId t])
    refine ⟨?_, fun row hrow => ?_, fun row hrow => ?_⟩
    · rw [hrows]
      exact Nat.le_refl 1
    · rw [hrows] at hrow
      rw [List.mem_singleton.mp hrow]
      rfl
    · rw [hrows] at hrow
      rw [List.mem_singleton.mp hrow]
      exact hchange

/-- An event that is no change of a status. -/
theorem keeps_audit {Q : Unit → Session → Prop} {entity : AuditEntity} {body : AuditBody}
    {actorType : ActorType} (hquiet : body.isChange = false)
    (h : ∀ t, Q () (x.flushed [auditStmt entity body actorType correlationId t])) :
    (recordEvent entity body actorType correlationId []).Keeps op Q x := by
  refine keeps_recordEvent .nil (by simp) (fun hchange => ?_) h
  rw [hquiet] at hchange
  cases hchange

/-- `_transition` locks the row of its case, then records the change. -/
theorem keeps_transition {Q : RecoveryCase → Session → Prop} {before recoveryCase : RecoveryCase}
    {target : RecoveryCaseStatus} {reason : Option String} {dirty : List Stmt}
    (hvalid : canTransition recoveryCase.status target) (hid : before.id = recoveryCase.id)
    (horder : Locking.InOrder RowKey.rank op.sweeps x.keys (.recoveryCase before.id :: keysOf dirty))
    (hdirty : ∀ st ∈ dirty, st.table ≠ .auditEvents)
    (h : ∀ y, y.keys = x.keys ++ .recoveryCase before.id :: keysOf dirty →
      Q (before.moved recoveryCase target) y) :
    (transition before recoveryCase target correlationId reason dirty).Keeps op Q x := by
  refine .bind (.ofExcept (fun _ _ => ?_) fun e he => ?_)
  · refine .bind (.flush horder (.of_tables ?_) (.bind (keeps_recordEvent .nil (by simp) ?_ ?_)))
    · -- neither the case nor what else is written is an audit event
      intro st hst
      rcases List.mem_cons.mp hst with rfl | hst
      · simp [Stmt.table]
      · exact hdirty st hst
    · -- the row of the case has just been locked
      intro _
      exact ⟨recoveryCase.id, rfl, by simp [Stmt.keys, hid]⟩
    · intro t
      refine .pure (h _ ?_)
      simp [Stmt.keys, auditStmt]
  · -- the check of the transition passes, by the status of the case
    rw [validateTransition_eq_ok_iff.mpr hvalid] at he
    cases he

/-- A transition of a session that holds the row of the case at most. -/
theorem keeps_move {Q : RecoveryCase → Session → Prop} {before recoveryCase : RecoveryCase}
    {target : RecoveryCaseStatus} {reason : Option String}
    (hvalid : canTransition recoveryCase.status target) (hid : before.id = recoveryCase.id)
    (hx : x.Only before.id) (h : ∀ y, y.Only before.id → Q (before.moved recoveryCase target) y) :
    (transition before recoveryCase target correlationId reason []).Keeps op Q x := by
  -- the only lock asked for is one that may be held already
  refine keeps_transition hvalid hid (.again hx) (by simp) fun y hy => h y fun k hk => ?_
  rw [hy, List.mem_append] at hk
  exact hk.elim (hx k) fun hk => List.mem_singleton.mp hk

/-- An event about a case changes nothing in what is held. -/
theorem keeps_auditOnly {Q : Unit → Session → Prop} {entity : AuditEntity} {body : AuditBody}
    {actorType : ActorType} {caseId : Uuid}
    (hquiet : body.isChange = false) (hx : x.Only caseId) (h : ∀ y, y.Only caseId → Q () y) :
    (recordEvent entity body actorType correlationId []).Keeps op Q x :=
  keeps_audit hquiet fun _ => h _ (hx.flushed fun _ hk => absurd hk List.not_mem_nil)

/-! ### Ingestion -/

/-- A case is opened while only locks of lower ranks are held, or in a sweep. -/
theorem keeps_createCase {Q : RecoveryCase → Session → Prop} {payment : Payment}
    (hx : op.sweeps = true ∨ ∀ k ∈ x.keys, k.rank < 5) (h : ∀ recoveryCase y, Q recoveryCase y) :
    (createCase payment correlationId).Keeps op Q x := by
  refine .bind (.uuid4 fun id => .bind (.now fun createdAt => .bind (.flush ?_
    (.of_tables (by simp [Stmt.table])) (.bind (keeps_audit rfl fun _ =>
      .pure (h _ _))))))
  -- the payment and the case: both keys of the row rank highest
  intro k hk
  have hrank : k.rank = 5 := by
    simp only [keysOf_cons, Stmt.keys, keysOf_nil, List.append_nil, List.mem_cons,
      List.not_mem_nil, or_false] at hk
    rcases hk with rfl | rfl <;> rfl
  refine .inr fun k' hk' => ?_
  rw [hrank]
  rcases hx with hb | hx
  · -- nothing ranks above the rows of the cases
    rcases Nat.lt_or_eq_of_le k'.rank_le with hlt | heq
    · exact .inl hlt
    · exact .inr ⟨hb, heq⟩
  · exact .inl (hx k' hk')

/-- `create_recovery_case_for_payment`, from a session with nothing open. -/
theorem keeps_createRecoveryCaseForPayment {paymentId : Uuid} (hx : x.held = []) :
    (createRecoveryCaseForPayment paymentId correlationId).Keeps op (fun _ y => y.held = []) x := by
  have hlow : ∀ k ∈ x.keys, k.rank < 5 := by
    intro k hk
    rw [Session.keys_of_held hx] at hk
    cases hk
  refine .bind (.select fun payment => ?_)
  -- a payment that is there, or not
  split
  · refine .ite (fun _ => .bind (.raise hx)) fun _ => .bind (.select fun existing => ?_)
    cases existing with
    | some existing => exact .pure hx
    | none =>
      exact .bind (keeps_createCase (.inr hlow) fun _ _ => .bind (.commit (.pure rfl)))
  · exact .raise hx

/-- Whoever is found or created, at most the row of that customer is locked. -/
theorem keeps_findOrCreateCustomer {Q : Customer → Session → Prop}
    {externalReference : Option String} (hx : x.held = [])
    (h : ∀ customer y, (∀ k ∈ y.keys, k = .customer customer.id) → Q customer y) :
    (findOrCreateCustomer externalReference).Keeps op Q x := by
  -- looking for the customer opens nothing
  have hfind : (findCustomer externalReference).Keeps op (fun _ y => y = x) x := by
    unfold findCustomer
    split
    · exact .bind (.select fun rows => .scalarOneOrNone (Q := fun _ y => y = x) (fun _ => rfl) rows)
    · exact .pure rfl
  refine .bind (hfind.mono fun found y hy => ?_)
  subst hy
  have hkeys := Session.keys_of_held hx
  cases found with
  | some customer =>
    refine .pure (h customer y fun k hk => ?_)
    rw [hkeys] at hk
    cases hk
  -- a new customer, in a session without locks
  | none =>
    refine .bind (.uuid4 fun id => .bind (.flush ?_ (.of_tables (by simp [Stmt.table]))
      (.pure (h _ _ fun k hk => ?_))))
    · rw [hkeys]
      exact .of_nil
    · rw [Session.flushed_keys, hkeys] at hk
      simpa [Stmt.keys] using hk

/-- The part of `ingest_payment` for a new payment: customer, payment, case, in that order. -/
theorem keeps_ingestNewPayment {request : PaymentIngestRequest} (hx : x.held = []) :
    (ingestNewPayment request correlationId).Keeps op (fun _ y => y.held = []) x := by
  refine .bind (keeps_findOrCreateCustomer hx fun customer y hy => ?_)
  refine .bind (.uuid4 fun id => .bind (.now fun createdAt => .bind (.now fun updatedAt =>
    .bind (.flush ?_ (.of_tables (by simp [Stmt.table])) ?_))))
  · -- the customer again, and the payment, which ranks above it
    change Locking.InOrder _ _ _
      ([RowKey.customer customer.id] ++ [RowKey.payment id])
    refine .append (.again hy) (.above fun k hk k' hk' => ?_)
    obtain rfl := List.mem_singleton.mp hk
    obtain rfl := hy k' hk'
    exact Nat.lt_succ_self 3
  · refine .bind (keeps_audit rfl fun t => .bind ?_)
    -- the case comes last, with the customer and the payment locked
    have hcase : ∀ payment z, (∀ k ∈ z.keys, k.rank < 5) →
        (createCaseIfFailed request payment correlationId).Keeps op (fun _ _ => True) z :=
      fun payment z hz => .ite
        (fun _ => .map (keeps_createCase (.inr hz) fun _ _ => trivial)) fun _ => .pure trivial
    refine (hcase _ _ ?_).mono fun _ _ _ => .bind (.commit (.pure rfl))
    intro k hk
    simp only [Session.flushed_keys, Session.stamped_keys, keysOf_cons, Stmt.keys, keysOf_nil,
      auditStmt, List.append_nil, List.mem_append, List.mem_cons,
      List.not_mem_nil, or_false] at hk
    -- whatever is held ranks below the rows of the cases
    rcases hk with hk | rfl | rfl
    · obtain rfl := hy k hk
      simp [RowKey.rank]
    · simp [RowKey.rank]
    · simp [RowKey.rank]

/-- `ingest_payment`. -/
theorem keeps_ingestPayment {request : PaymentIngestRequest} (hx : x.held = []) :
    (ingestPayment request correlationId).Keeps op (fun _ y => y.held = []) x := by
  unfold ingestPayment
  split
  · -- a payment without a provider id is always new
    exact keeps_ingestNewPayment hx
  · refine .bind (.select fun existing => ?_)
    cases existing with
    | none => exact keeps_ingestNewPayment hx
    | some existing =>
      exact .bind (.select fun _ => .bind (keeps_audit rfl fun _ =>
        .bind (.commit (.pure rfl))))

/-- The loop of a sweep, by recursion on the payments. Only a sweep may hold the rows of several
cases. -/
theorem keeps_createCases (hop : op.sweeps = true) {Q : List Uuid → Session → Prop}
    (h : ∀ ids y, Q ids y) : ∀ (payments : List Payment) (x : Session),
      (createCases correlationId payments).Keeps op Q x
  | [], _ => .pure (h _ _)
  | _ :: payments, _ =>
    .bind (keeps_createCase (.inl hop) fun _ y => .bind (keeps_createCases hop
      (fun _ _ => .pure (h _ _)) payments y))

/-- `discover_failed_payments`. -/
theorem keeps_discoverFailedPayments (hop : op.sweeps = true) {limit : Nat} :
    (discoverFailedPayments limit correlationId).Keeps op (fun _ y => y.held = []) x :=
  .bind (.select fun payments => .bind (.select fun _ => .bind (keeps_createCases hop
    (fun _ _ => .bind (.commit (.pure rfl))) payments x)))

/-! ### Diagnosis -/

/-- Reading the configuration leaves the session as it is. -/
theorem keeps_readPolicyConfig {Q : PolicyConfig → Session → Prop} (h : ∀ config, Q config x) :
    readPolicyConfig.Keeps op Q x := .bind (.getSettings fun _ => .pure (h _))

/-- The review of a recommendation, with the row of the case in hand. -/
theorem keeps_reviewRecommendation {recoveryCase : RecoveryCase} {payment : Payment}
    {outcome : AIOutcome} {policyConfig : Option PolicyConfig} (hx : x.Only recoveryCase.id)
    (hstatus : recoveryCase.status = .policyReview) :
    (reviewRecommendation recoveryCase payment outcome correlationId policyConfig).Keeps op
      (fun _ y => y.held = []) x := by
  -- reading the configuration opens nothing
  have hconfig : (policyConfigOrSettings policyConfig).Keeps op (fun _ y => y = x) x := by
    cases policyConfig with
    | some config => exact .pure rfl
    | none => exact keeps_readPolicyConfig fun _ => rfl
  refine .bind (hconfig.mono fun config y hy => ?_)
  subst hy
  refine .bind (.now fun now => .bind (keeps_recordEvent ?_ ?_ (fun hc => by cases hc)
    fun t => .bind (keeps_move ?_ rfl ?_ fun z hz => .bind (.commit (.pure rfl)))))
  · -- the pending update, if there is one, is of the case itself
    unfold RecoveryCase.pendingUpdate
    split
    · exact .nil
    · exact .again hx
  · -- the pending update is no audit event
    intro st hst
    rw [RecoveryCase.eq_of_mem_pendingUpdate hst]
    simp [Stmt.table]
  · -- the review leaves the status as it is
    rw [RecoveryCase.flushed_status]
    change canTransition recoveryCase.status (resolveNextStatus _ _ _).1
    rw [hstatus]
    exact canTransition_resolveNextStatus _ _ _
  · rw [RecoveryCase.flushed_id]
    refine Session.Only.flushed hx fun k hk => ?_
    rw [keysOf_append, List.mem_append] at hk
    rcases hk with hk | hk
    · -- the row of the case is all that is locked
      obtain ⟨st, hst, hk⟩ := mem_keysOf.mp hk
      rw [RecoveryCase.eq_of_mem_pendingUpdate hst] at hk
      exact List.mem_singleton.mp hk
    · cases hk

/-- The middle of a diagnosis. The AI is asked while the row of the case is locked. -/
theorem keeps_diagnoseEligible {loaded : CaseForDiagnosis} {recoveryCase : RecoveryCase}
    {policyConfig : Option PolicyConfig} (hx : x.Only recoveryCase.id)
    (hvalid : canTransition recoveryCase.status .diagnosing) :
    (diagnoseEligible loaded recoveryCase correlationId policyConfig).Keeps op
      (fun _ y => y.held = []) x := by
  refine .bind (keeps_move hvalid rfl hx fun y hy => .bind (.now fun now => .bind ?_))
  -- the AI is asked while the row of the case is held, and no other
  have hask : ∀ {Q : AIOutcome → Session → Prop} {context : PaymentRecoveryContext} {z : Session},
      z.Only recoveryCase.id → (∀ outcome, Q outcome z) →
        (getRecommendation context).Keeps op Q z := by
    intro Q context z hz h
    refine .bind ⟨⟨_, hz⟩, fun answer hexpected => ?_⟩
    cases answer with
    | ok outcome => exact h outcome
    -- what it may raise is what the discipline expects
    | error e => exact hexpected
  refine hask hy fun outcome => .bind (keeps_auditOnly rfl hy fun y₁ hy₁ =>
    .bind (keeps_auditOnly rfl hy₁ fun y₂ hy₂ => .bind (keeps_move rfl rfl hy₂
      fun y₃ hy₃ => .bind (keeps_move rfl rfl hy₃ fun y₄ hy₄ => ?_))))
  exact keeps_reviewRecommendation hy₄ rfl

/-- **A diagnosis** locks its case and nothing else. -/
theorem keeps_diagnoseRecoveryCase {caseId : Uuid} {policyConfig : Option PolicyConfig}
    (hx : x.held = []) : (diagnoseRecoveryCase caseId correlationId policyConfig).Keeps op
      (fun _ y => y.held = []) x := by
  refine .guardAgainstConcurrentModification (.bind (.select fun loaded => ?_))
  split
  · next loaded =>
    -- behind the door the status is one from which a diagnosis may set out
    refine .ite (fun hnot => .bind (.ofExcept (fun u hok => ?raised) fun _ _ => hx)) fun hin => ?ready
    case' raised =>
      have hdoor : loaded.recoveryCase.status = .discovered ∨
          canTransition loaded.recoveryCase.status .diagnosing :=
        .inr (validateTransition_eq_ok_iff.mp hok)
    case' ready =>
      have hdoor : loaded.recoveryCase.status = .discovered ∨
          canTransition loaded.recoveryCase.status .diagnosing := by
        -- the diagnosable statuses
        rw [not_not] at hin
        simp only [diagnosableStatuses, List.mem_cons, List.not_mem_nil, or_false] at hin
        rcases hin with h | h | h
        · exact .inl h
        · exact .inr (h ▸ rfl)
        · exact .inr (h ▸ rfl)
    all_goals
      refine .bind (keeps_auditOnly rfl (Session.only_of_held hx loaded.recoveryCase.id)
        fun y hy => .ite (fun hdisc => ?_) fun hdisc => ?_)
      · refine .bind (keeps_move ?_ rfl hy fun z hz => .ite (fun _ => .bind (.commit (.pure rfl)))
          fun hne => keeps_diagnoseEligible hz ?_)
        · -- from DISCOVERED, eligible or not
          change canTransition loaded.recoveryCase.status _
          rw [hdisc]
          split <;> rfl
        · -- who is not turned away has been found eligible
          revert hne
          change ¬ (if _ then RecoveryCaseStatus.eligible else .ineligible) = _ →
            canTransition (if _ then RecoveryCaseStatus.eligible else .ineligible) .diagnosing
          split
          · exact fun _ => rfl
          · exact fun hne => absurd rfl hne
      · -- no move yet, so the status is the one at the door
        exact keeps_diagnoseEligible hy (hdoor.resolve_left hdisc)
  · exact .raise hx

/-! ### Execution -/

/-- `_escalate`. -/
theorem keeps_escalate {before recoveryCase : RecoveryCase} {reason : String}
    {decision : Option PolicyDecision}
    (horder : Locking.InOrder RowKey.rank op.sweeps x.keys [.recoveryCase before.id])
    (hid : before.id = recoveryCase.id) (hstatus : recoveryCase.status = .executing) :
    (escalate before recoveryCase reason correlationId decision).Keeps op
      (fun _ y => y.held = []) x := by
  refine .bind (keeps_transition ?_ hid horder (by simp) fun _ _ => .bind (.commit (.pure rfl)))
  -- the case is EXECUTING, and may be escalated from there
  rw [hstatus]
  rfl

/-- `_record_payment_link_created` is a transaction of its own. -/
theorem keeps_recordPaymentLinkCreated {recoveryCase : RecoveryCase} {attempt : RecoveryAttempt}
    {link : PaymentLinkSnapshot} (hx : x.held = []) :
    (recordPaymentLinkCreated recoveryCase attempt link correlationId).Keeps op
      (fun _ y => y.held = []) x := by
  refine .bind (.now fun completedAt => .bind (.uuid4 fun id => .bind (.flush ?_ (.of_tables ?_)
    (.bind (keeps_audit rfl fun _ => .bind (.commit (.pure rfl)))))))
  · -- a session without locks may ask for any
    rw [Session.stamped_keys, Session.keys_of_held hx]
    exact .of_nil
  · intro st hst
    -- the case, the attempt and the link: none is an audit event
    rcases List.mem_cons.mp hst with rfl | hst
    · simp [Stmt.table]
    rcases List.mem_append.mp hst with hst | hst
    · rw [RecoveryAttempt.table_of_mem_pendingUpdate hst]
      simp
    · obtain rfl := List.mem_singleton.mp hst
      simp [Stmt.table]

/-- `_handle_definite_failure` locks the attempt, then the case. -/
theorem keeps_handleDefiniteFailure {recoveryCase : RecoveryCase} {attempt : RecoveryAttempt}
    {error : PaymentProviderError} {failureCategory : Option ProviderFailureCategory}
    {reason : Option String} (hx : x.held = []) (hstatus : recoveryCase.status = .executing) :
    (handleDefiniteFailure recoveryCase attempt error correlationId failureCategory reason).Keeps op
      (fun _ y => y.held = []) x := by
  refine .bind (.now fun completedAt => .bind (.flush ?_ (.of_tables ?_)
    (keeps_escalate (.above ?_) rfl hstatus)))
  · rw [Session.stamped_keys, Session.keys_of_held hx]
    exact .of_nil
  · intro st hst
    rw [RecoveryAttempt.table_of_mem_pendingUpdate hst]
    simp
  · -- the row of the attempt ranks below the row of the case
    intro k hk k' hk'
    obtain rfl := List.mem_singleton.mp hk
    rw [Session.flushed_keys, Session.stamped_keys, Session.keys_of_held hx, List.nil_append] at hk'
    obtain ⟨st, hst, hk'⟩ := mem_keysOf.mp hk'
    rw [RecoveryAttempt.eq_of_mem_pendingUpdate hst] at hk'
    obtain rfl := List.mem_singleton.mp hk'
    simp [RowKey.rank]

/-- The search for a link opens nothing. -/
theorem keeps_reconcile {Q : Option PaymentLinkSnapshot × Option String → Session → Prop}
    {referenceId : String} (hx : x.keys = []) (h : ∀ found, Q found x) :
    (reconcile referenceId).Keeps op Q x := by
  refine .bind ⟨hx, fun answer hexpected => ?_⟩
  -- a provider error is noted; what else is raised goes on
  rcases answer with (error | error) | found
  · exact h (none, some error.message)
  · exact hexpected
  · exact h (found, none)

/-- `_handle_ambiguous_creation`. -/
theorem keeps_handleAmbiguousCreation {recoveryCase : RecoveryCase} {attempt : RecoveryAttempt}
    {referenceId : String} {error : PaymentProviderError} (hx : x.held = [])
    (hstatus : recoveryCase.status = .executing) :
    (handleAmbiguousCreation recoveryCase attempt referenceId error correlationId).Keeps op
      (fun _ y => y.held = []) x := by
  -- an audit event holds no lock, so none is held while the link is looked for
  refine .bind (keeps_audit rfl fun t => .bind (keeps_reconcile ?_ fun ⟨found, _⟩ =>
    .bind (keeps_audit rfl fun t => .bind (.commit ?_))))
  · rw [Session.flushed_keys, Session.keys_of_held hx]
    rfl
  · -- found or not, the second transaction starts with nothing open
    cases found with
    | some link => exact keeps_recordPaymentLinkCreated rfl
    | none => exact keeps_handleDefiniteFailure rfl hstatus

/-- The call of the provider is made with nothing open. -/
theorem keeps_callProvider {recoveryCase : RecoveryCase} {payment : Payment}
    {attempt : RecoveryAttempt} {amount expiryHours : Int} {executionReference : String}
    (hx : x.held = []) (hstatus : recoveryCase.status = .executing) :
    (callProvider recoveryCase payment attempt amount expiryHours executionReference
      correlationId).Keeps op (fun _ y => y.held = []) x := by
  -- what is raised before the call is raised with nothing open
  refine .ite (fun _ => .bind (.raise hx)) fun _ => .bind (.now fun now =>
    .bind (.ite (fun _ => .throw trivial) fun _ => .pure (.bind ⟨hx, fun answer hexpected => ?_⟩)))
  rcases answer with (error | error) | link
  · exact .ite (fun _ => keeps_handleAmbiguousCreation hx hstatus)
      fun _ => keeps_handleDefiniteFailure hx hstatus
  · exact hexpected
  · exact keeps_recordPaymentLinkCreated hx

/-- `_create_payment_link`: the attempt is committed before the call. -/
theorem keeps_createPaymentLink {recoveryCase : RecoveryCase} {payment : Payment}
    (hx : x.held = []) (hstatus : recoveryCase.status = .executing) :
    (createPaymentLink recoveryCase payment correlationId).Keeps op (fun _ y => y.held = []) x := by
  refine .bind (.getSettings fun settings => .bind (.uuid4 fun reference => .bind (.now fun _ =>
    .bind (.uuid4 fun id => .bind (.now fun _ => .bind (.flush ?_
      (.of_tables (by simp [Stmt.table])) (.bind (keeps_audit rfl fun _ =>
        .bind (.commit (keeps_callProvider rfl hstatus))))))))))
  -- the commit before this one has left nothing open
  rw [Session.stamped_keys, Session.stamped_keys, Session.keys_of_held hx]
  exact .of_nil

/-- **An execution** holds its case, or its attempt and then its case, or nothing. -/
theorem keeps_executeRecoveryCase {caseId : Uuid} (hx : x.held = []) :
    (executeRecoveryCase caseId correlationId).Keeps op (fun _ y => y.held = []) x := by
  -- what is only read along the way
  have haction : ∀ {Q : RecoveryAction → Session → Prop} {c : RecoveryCase} {y : Session},
      (∀ action, Q action y) → (recommendedActionOf c).Keeps op Q y := by
    intro Q c y h
    unfold recommendedActionOf
    split
    · exact .pure (h _)
    · exact .throw trivial
  have hrecheck : ∀ {Q : PolicyDecision → Session → Prop} {c : RecoveryCase} {p : Payment}
      {y : Session}, (∀ decision t, Q decision (y.stamped t)) → (recheckPolicy c p).Keeps op Q y :=
    fun h => .bind (keeps_readPolicyConfig fun _ => .bind (.now fun t => .bind
      (haction fun _ => .pure (h _ t))))
  refine .guardAgainstConcurrentModification (.bind (.select fun loaded => ?_))
  split
  · next loaded =>
    have hheld := Session.only_of_held hx loaded.recoveryCase.id
    -- the check at the door is the one of the transition behind it
    refine .bind (.ofExcept (fun u hok => .bind (keeps_auditOnly rfl hheld fun y hy =>
      .bind (hrecheck fun decision t => .bind (keeps_auditOnly rfl ?_ fun z hz =>
        .bind (keeps_move ?_ rfl hz fun z' hz' => ?_))))) fun _ _ => hx)
    · exact hy
    · exact validateTransition_eq_ok_iff.mp hok
    · -- every way out ends with a commit: withheld, escalated, or on to the provider
      refine .ite (fun _ => keeps_escalate (.again hz') rfl rfl) fun _ => .bind (haction fun _ =>
        .ite (fun _ => keeps_escalate (.again hz') rfl rfl) fun _ => .bind (.commit ?_))
      exact keeps_createPaymentLink rfl rfl
  · exact .raise hx

/-! ### Deliveries -/

/-- A claim is held, or nothing is. -/
theorem keeps_claimEvent {Q : Bool → Session → Prop} {event : ParsedWebhookEvent}
    (hx : x.held = []) (hclaimed : ∀ y, y.keys = [.dedupKey event.dedupKey] → Q true y)
    (hknown : ∀ y, y.held = [] → Q false y) : (claimEvent event).Keeps op Q x := by
  have hkeys := Session.keys_of_held hx
  -- a known key opens nothing
  refine .bind (.select fun known => .ite (fun _ => .pure (hknown x hx)) fun _ => ?_)
  refine .tryCatch (.bind (.flush ?_ (.of_tables (by simp [Stmt.table]))
    (.pure (hclaimed _ ?_)))) fun e y hy => ?_
  · rw [hkeys]
    exact .of_nil
  · rw [Session.flushed_keys, hkeys]
    simp [Stmt.keys]
  · -- a lost race is rolled back, and the key is held no more
    cases e with
    | integrityError => exact .bind (.rollback (.pure (hknown _ rfl)))
    | _ => exact .throw hy

/-- The locks of a delivery that settles a case rank below those it still needs. -/
theorem keeps_settleCase {loaded : CaseForExecution} {paymentRequest : RecoveryPaymentRequest}
    (hx : ∀ k ∈ x.keys, k.rank < 2) (hstatus : loaded.recoveryCase.status = .executing) :
    (settleCase loaded paymentRequest correlationId).Keeps op (fun _ y => y.held = []) x := by
  have hattempt : (getAttempt loaded.attempts paymentRequest.recoveryAttemptId).Keeps op
      (fun _ y => y = x) x := by
    unfold getAttempt
    split
    · exact .pure rfl
    · exact .select fun _ => rfl
  -- both ways a case in EXECUTING can be settled
  have hcanRecover : canTransition loaded.recoveryCase.status .recovered := by
    rw [hstatus]
    rfl
  have hcanFail : canTransition loaded.recoveryCase.status .failed := by
    rw [hstatus]
    rfl
  refine .bind (hattempt.mono fun attempt y hy => ?_)
  subst hy
  refine .ite (fun _ => .bind (keeps_transition hcanRecover rfl (.above ?_) (by simp) fun _ _ =>
    .bind (.commit (.pure rfl)))) fun _ => .bind (keeps_transition hcanFail rfl (.above ?_) ?_
    fun _ _ => .bind (.commit (.pure rfl)))
  · -- the case ranks above claim and link
    intro k hk k' hk'
    obtain rfl := List.mem_singleton.mp hk
    exact (hx k' hk').trans (by simp [RowKey.rank])
  · -- the case, and the attempt if it is there and has not failed so before
    intro k hk k' hk'
    refine (hx k' hk').trans_le ?_
    rcases List.mem_cons.mp hk with rfl | hk
    · simp [RowKey.rank]
    · cases attempt with
      | none => cases hk
      | some attempt =>
        obtain ⟨st, hst, hk⟩ := mem_keysOf.mp hk
        rw [RecoveryAttempt.eq_of_mem_pendingUpdate hst] at hk
        obtain rfl := List.mem_singleton.mp hk
        simp [RowKey.rank]
  · -- nothing of it is an audit event
    intro st hst
    cases attempt with
    | none => cases hst
    | some attempt =>
      rw [RecoveryAttempt.table_of_mem_pendingUpdate hst]
      simp

/-- `_apply_payment_link_event`: behind the claim the link, behind the link the case. -/
theorem keeps_applyPaymentLinkEvent {event : ParsedWebhookEvent} {paymentLinkId : String}
    (hx : x.keys = [.dedupKey event.dedupKey]) :
    (applyPaymentLinkEvent event paymentLinkId correlationId).Keeps op
      (fun _ y => y.held = []) x := by
  -- reading the status of the link
  have hstatus : ∀ {Q : RecoveryPaymentRequestStatus → Session → Prop} {status : Option String},
      (∀ st, Q st x) → (linkStatusOf status).Keeps op Q x := by
    intro Q status h
    unfold linkStatusOf
    split
    · exact .pure (h _)
    · exact .throw trivial
  -- the claim ranks lowest
  have hclaim : ∀ k ∈ x.keys, k.rank < 1 := by
    intro k hk
    rw [hx] at hk
    obtain rfl := List.mem_singleton.mp hk
    exact Nat.zero_lt_one
  refine .bind (.select fun link => ?_)
  split
  · next link =>
    refine .bind (.select fun loaded => ?_)
    split
    · next loaded =>
      -- the link is locked behind the claim
      have hlink : ∀ {after : RecoveryPaymentRequest} {k : RowKey},
          k ∈ keysOf (link.pendingUpdate after) → k = .paymentRequest link.id := by
        intro after k hk
        obtain ⟨st, hst, hk⟩ := mem_keysOf.mp hk
        rw [RecoveryPaymentRequest.eq_of_mem_pendingUpdate hst] at hk
        exact List.mem_singleton.mp hk
      refine .bind (hstatus fun status => .bind (keeps_recordEvent (.above ?_) ?_ ?_ fun t =>
        .ite (fun _ => .bind (.commit (.pure rfl))) fun hexec => keeps_settleCase ?_ (not_not.mp hexec)))
      · intro k hk k' hk'
        rw [hlink hk]
        exact hclaim k' hk'
      · intro st hst
        rw [RecoveryPaymentRequest.table_of_mem_pendingUpdate hst]
        simp
      · -- what happened to the link is no change of the status of its case
        intro hc
        unfold paymentEventBody at hc
        split at hc <;> cases hc
      · -- claim and link rank below what settling the case needs
        intro k hk
        rw [Session.flushed_keys, keysOf_append, List.mem_append, List.mem_append] at hk
        rcases hk with hk | hk | hk
        · exact (hclaim k hk).trans Nat.one_lt_two
        · rw [hlink hk]
          exact Nat.one_lt_two
        · cases hk
    · exact .bind (.commit (.pure rfl))
  · exact .bind (keeps_audit rfl fun _ => .bind (.commit (.pure rfl)))

/-- **A delivery.** What it does not settle it commits as it is. -/
theorem keeps_processWebhookEvent {event : ParsedWebhookEvent} (hx : x.held = []) :
    (processWebhookEvent event correlationId).Keeps op (fun _ y => y.held = []) x := by
  -- a duplicate has nothing left to do
  refine .bind (keeps_claimEvent hx (fun y hy => ?_) fun y hy => .ite (fun _ => .pure hy)
    fun hne => absurd rfl hne)
  refine .ite (fun he => by cases he) fun _ => ?_
  -- an event without a link id has only its claim to commit
  split
  · exact .bind (.commit (.pure rfl))
  · refine .ite (fun _ => .bind (.commit (.pure rfl))) fun _ => .bind ?_
    exact (Service.Keeps.guardAgainstConcurrentModification (keeps_applyPaymentLinkEvent hy)).mono
      fun _ _ hz => .pure hz

/-! ### Cycles -/

/-- The loop reads, and holds nothing. -/
theorem keeps_collectCases {Q : List Uuid → Session → Prop} {limit : Nat} (h : ∀ ids, Q ids x) :
    ∀ (statuses : List RecoveryCaseStatus) (collected : List Uuid),
      (collectCases limit statuses collected).Keeps op Q x
  | [], _ => .pure (h _)
  | _ :: statuses, _ =>
    .ite (fun _ => .pure (h _)) fun _ => .bind (.select fun _ => keeps_collectCases h statuses _)

/-- `_current_status` opens nothing. -/
theorem keeps_currentStatus {Q : RecoveryCaseStatus → Session → Prop} {caseId : Uuid}
    (h : ∀ status, Q status x) : (currentStatus caseId).Keeps op Q x := by
  refine .bind (.select fun recoveryCase => ?_)
  cases recoveryCase with
  | none => exact .pure (h _)
  | some recoveryCase => exact .pure (h _)

section Cycles

variable (hop : op.cycles = true)
include hop

/-- An execution inside a cycle. -/
theorem keeps_executeInCycle {caseId : Uuid} {diagnosed : Bool} (hx : x.held = []) :
    (executeInCycle caseId correlationId diagnosed).Keeps op (fun _ y => y.held = []) x := by
  -- the case is executed with nothing open, and left with nothing open
  refine .bind (.catchRecoverAI hop ((keeps_executeRecoveryCase hx).mono fun _ _ hy => .pure hy)
    fun e y hy => ?_)
  exact .bind (keeps_currentStatus fun _ => .pure hy)

/-- `_process_case`. -/
theorem keeps_processCase {caseId : Uuid} {autoExecute : Bool} {budget : Nat}
    (hx : x.held = []) :
    (processCase caseId correlationId autoExecute budget).Keeps op (fun _ y => y.held = []) x := by
  refine .bind (.catchRecoverAI hop ((keeps_diagnoseRecoveryCase hx).mono fun diagnosis y hy => ?_)
    fun e y hy => .bind (keeps_currentStatus fun _ => .pure hy))
  -- three ways to leave an approved or other case alone
  exact .ite (fun _ => .pure hy) fun _ => .ite (fun _ => .pure hy) fun _ =>
    .ite (fun _ => .pure hy) fun _ => keeps_executeInCycle hop hy

/-- Each case finds the session as the one before it has left it, with nothing open. -/
theorem keeps_processCases {autoExecute : Bool} : ∀ (caseIds : List Uuid) (budget : Nat)
    (x : Session), x.held = [] →
      (processCases correlationId autoExecute caseIds budget).Keeps op (fun _ y => y.held = []) x
  | [], _, _, hx => .pure hx
  | _ :: caseIds, _, _, hx => .bind ((keeps_processCase hop hx).mono fun _ y hy =>
      .bind ((keeps_processCases caseIds _ y hy).mono fun _ _ hz => .pure hz))

/-- The loop of step 3. -/
theorem keeps_drainBacklog : ∀ (caseIds : List Uuid) (budget : Nat) (x : Session), x.held = [] →
    (drainBacklog correlationId caseIds budget).Keeps op (fun _ y => y.held = []) x
  | [], _, _, hx => .pure hx
  | _ :: caseIds, _, _, hx => .ite (fun _ => .pure hx) fun _ =>
      .bind ((keeps_executeInCycle hop hx).mono fun _ y hy =>
        .bind ((keeps_drainBacklog caseIds _ y hy).mono fun _ _ hz => .pure hz))

/-- Step 3 of a cycle. -/
theorem keeps_drainApproved {autoExecute : Bool} {remaining : Nat}
    {processed : List CycleCaseOutcome} (hx : x.held = []) :
    (drainApproved correlationId autoExecute remaining processed).Keeps op
      (fun _ y => y.held = []) x :=
  .ite (fun _ => .bind (.bind (.select fun _ => .pure (keeps_drainBacklog hop _ _ x hx))))
    fun _ => .pure hx

/-- **A recovery cycle**: a sweep, then one case after the other. -/
theorem keeps_runRecoveryCycle {budget : CycleBudget} :
    (runRecoveryCycle budget correlationId).Keeps op (fun _ y => y.held = []) x := by
  -- the sweep first; it leaves nothing open
  refine .bind (.uuid4 fun cycleId => .bind (.now fun startedAt => .bind
    ((keeps_discoverFailedPayments (Op.sweeps_of_cycles hop)).mono fun discovery y hy => ?_)))
  -- the reads, then one case after the other, each with nothing open
  refine .bind (.bind (keeps_collectCases (fun ids => .pure ?_) _ _))
  refine .bind ((keeps_processCases hop _ _ y hy).mono fun processed z hz => ?_)
  refine .bind ((keeps_drainApproved hop hz).mono fun drained z' _ => ?_)
  exact .bind (.now fun finishedAt => .bind (keeps_audit rfl fun _ =>
    .bind (.commit (.pure rfl))))

end Cycles

/-! ### Operations -/

/-- **Every operation keeps the discipline, and returns with nothing open.** -/
theorem Op.keeps_service (op : Op) :
    op.service.Keeps op (fun _ y => y.held = []) Session.idle := by
  have hidle : Session.idle.held = [] := rfl
  cases op with
  | ingest request correlationId => exact .map (keeps_ingestPayment hidle)
  | createCase paymentId correlationId => exact .map (keeps_createRecoveryCaseForPayment hidle)
  | discover limit correlationId => exact .map (keeps_discoverFailedPayments rfl)
  | diagnose caseId correlationId => exact .map (keeps_diagnoseRecoveryCase hidle)
  | execute caseId correlationId => exact .map (keeps_executeRecoveryCase hidle)
  | webhook event correlationId => exact .map (keeps_processWebhookEvent hidle)
  | cycle budget correlationId => exact .map (keeps_runRecoveryCycle rfl)

end RecoverAI
