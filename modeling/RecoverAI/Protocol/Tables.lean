import RecoverAI.Protocol.Effects

/-!
# The tables a transaction writes

Seen by the tables they write, the transactions are of four kinds (`TxnKind`): most
write cases, attempts and audit events only; an ingestion adds a payment and counts it;
the record of a link adds the link; and a delivery claims its event, and may update the
link it is about (`DeliveryEffect`).
-/

namespace RecoverAI

open Interleave

/-! ### Internal statements -/

/-- The statements write cases, attempts and audit events only. -/
def Internal (sts : List Stmt) : Prop :=
  ∀ st ∈ sts, st.table = .recoveryCases ∨ st.table = .recoveryAttempts ∨ st.table = .auditEvents

namespace Internal

variable {sts sts' : List Stmt} {st : Stmt}

theorem nil : Internal [] := by simp [Internal]

/-- One more statement. -/
theorem cons (hst : st.table = .recoveryCases ∨ st.table = .recoveryAttempts ∨
    st.table = .auditEvents) (h : Internal sts) : Internal (st :: sts) := by
  intro st' hst'
  rcases List.mem_cons.mp hst' with rfl | hst'
  · exact hst
  · exact h st' hst'

theorem append (h : Internal sts) (h' : Internal sts') : Internal (sts ++ sts') := by
  intro st hst
  rcases List.mem_append.mp hst with hst | hst
  · exact h st hst
  · exact h' st hst

/-- An audit event. -/
theorem audit (entity : AuditEntity) (body : AuditBody) (actorType : ActorType)
    (correlationId : String) (now : Time) :
    Internal [auditStmt entity body actorType correlationId now] :=
  cons (.inr (.inr rfl)) nil

/-- The update of an attempt, if there is one. -/
theorem attemptUpdate (before after : RecoveryAttempt) : Internal (before.pendingUpdate after) :=
  fun _ hst => .inr (.inl (RecoveryAttempt.table_of_mem_pendingUpdate hst))

/-- The update of a case, if there is one. -/
theorem caseUpdate (before after : RecoveryCase) : Internal (before.pendingUpdate after) := by
  intro st hst
  rw [RecoveryCase.eq_of_mem_pendingUpdate hst]
  exact .inl rfl

/-- A transition with what is written along with it. -/
theorem transition {before after : RecoveryCase} {target : RecoveryCaseStatus}
    {correlationId : String} {reason : Option String} {dirty : List Stmt} {now : Time}
    (hd : Internal dirty) :
    Internal (transitionStmts before after target correlationId reason dirty now) :=
  (cons (.inl rfl) hd).append (audit _ _ _ _ _)

/-- What opens cases. -/
theorem openings (openings : List Opening) (correlationId : String) :
    Internal (openings.map fun o => Opening.stmts o correlationId).flatten :=
  forall_mem_openings (fun _ => .inl rfl) (fun _ _ _ _ => .inr (.inr rfl)) openings

/-- A whole diagnosis. -/
theorem diagnosis (d : Diagnosis) : Internal d.stmts := by
  -- the case moves up to ELIGIBLE only if it was DISCOVERED
  have hadmission : Internal d.admissionStmts := by
    unfold Diagnosis.admissionStmts
    split
    · exact transition nil
    · exact nil
  -- the recommendation is audited twice, by the AI and by the system
  have hai : Internal d.aiStmts := (audit _ _ _ _ _).append (audit _ _ _ _ _)
  have hrecommendation : Internal d.recommendationStmts :=
    (((transition nil).append hai).append (transition nil)).append (transition nil)
  -- the review writes the case if the decision changes it
  have hreview : Internal d.reviewStmts :=
    ((caseUpdate _ _).append (audit _ _ _ _ _)).append (transition nil)
  exact ((cons (.inr (.inr rfl)) hadmission).append hrecommendation).append hreview

/-- The claim of an execution. -/
theorem claim (x : Execution) : Internal x.claimStmts :=
  ((audit _ _ _ _ _).append (audit _ _ _ _ _)).append (transition nil)

/-- Internal statements leave the other tables alone. -/
theorem table_ne {table : Stmt.TableName} (h : Internal sts)
    (ht : table ≠ .recoveryCases ∧ table ≠ .recoveryAttempts ∧ table ≠ .auditEvents) :
    ∀ st ∈ sts, st.table ≠ table := by
  rintro st hst rfl
  -- each of the three tables is another one
  rcases h st hst with h | h | h
  · exact ht.1 h
  · exact ht.2.1 h
  · exact ht.2.2 h

end Internal

/-! ### Statements over the cases -/

/-- Statements over the cases and the audit trail only. -/
def OnCases (sts : List Stmt) : Prop :=
  ∀ st ∈ sts, st.table = .recoveryCases ∨ st.table = .auditEvents

namespace OnCases

variable {sts sts' : List Stmt}

theorem nil : OnCases [] := fun _ hst => absurd hst List.not_mem_nil

theorem append (h : OnCases sts) (h' : OnCases sts') : OnCases (sts ++ sts') := by
  intro st hst
  exact (List.mem_append.mp hst).elim (h st) (h' st)

theorem audit {entity : AuditEntity} {body : AuditBody} {actorType : ActorType}
    {correlationId : String} {now : Time} :
    OnCases [auditStmt entity body actorType correlationId now] := by
  simp [OnCases, auditStmt, Stmt.table]

/-- A transition that writes nothing else. -/
theorem transition {before after : RecoveryCase} {target : RecoveryCaseStatus}
    {correlationId : String} {reason : Option String} {now : Time} :
    OnCases (transitionStmts before after target correlationId reason [] now) := by
  simp [OnCases, transitionStmts, auditStmt, Stmt.table]

theorem pendingUpdate {before after : RecoveryCase} : OnCases (before.pendingUpdate after) := by
  intro st hst
  rw [RecoveryCase.eq_of_mem_pendingUpdate hst]
  exact .inl rfl

theorem openings (openings : List Opening) (correlationId : String) :
    OnCases (openings.map fun o => Opening.stmts o correlationId).flatten :=
  forall_mem_openings (fun _ => .inl rfl) (fun _ _ _ _ => .inr rfl) openings

theorem claim (x : Execution) : OnCases x.claimStmts := (audit.append audit).append transition

/-- An execution that is withheld. -/
theorem withhold (x : Execution) (reason : String) (now : Time) :
    OnCases (x.withholdStmts reason now) :=
  (claim x).append transition

/-- Statements over the cases are internal. -/
theorem internal (h : OnCases sts) : Internal sts := fun st hst =>
  (h st hst).imp id .inr

theorem table_ne {table : Stmt.TableName} (h : OnCases sts) (hc : table ≠ .recoveryCases)
    (ha : table ≠ .auditEvents) : ∀ st ∈ sts, st.table ≠ table := by
  rintro st hst rfl
  exact (h st hst).elim hc ha

end OnCases

/-- A diagnosis writes its case and the audit trail. -/
theorem Diagnosis.onCases_stmts (d : Diagnosis) : OnCases d.stmts := by
  -- the three parts of a diagnosis, as they were flushed
  have hadmission : OnCases d.admissionStmts := by
    unfold admissionStmts
    split
    · exact .transition
    · exact .nil
  have hrecommendation : OnCases d.recommendationStmts :=
    ((OnCases.transition.append (OnCases.audit.append .audit)).append .transition).append
      .transition
  have hreview : OnCases d.reviewStmts :=
    (OnCases.pendingUpdate.append .audit).append .transition
  exact ((OnCases.audit.append hadmission).append hrecommendation).append hreview

theorem Diagnosis.onCases_turnAwayStmts (d : Diagnosis) : OnCases d.turnAwayStmts :=
  OnCases.audit.append .transition

/-! ### The cases a transaction updates -/

/-- No case other than `caseId` is updated. -/
def Solely (caseId : Uuid) (sts : List Stmt) : Prop :=
  ∀ st ∈ sts, ∀ id, st.caseUpdated? = some id → id = caseId

namespace Solely

variable {caseId : Uuid} {sts sts' : List Stmt}

/-- Statements over other tables update no case. -/
theorem of_table (h : ∀ st ∈ sts, st.table ≠ .recoveryCases) : Solely caseId sts := by
  intro st hst id hid
  cases st with
  -- the one statement that updates a case
  | updateCase before after => exact absurd rfl (h _ hst)
  | _ => cases hid

theorem nil : Solely caseId [] := of_table (by simp)

theorem append (h : Solely caseId sts) (h' : Solely caseId sts') : Solely caseId (sts ++ sts') := by
  intro st hst
  exact (List.mem_append.mp hst).elim (h st) (h' st)

/-- The update of the case itself. -/
theorem cons_update {before after : RecoveryCase} (hid : before.id = caseId)
    (h : Solely caseId sts) : Solely caseId (.updateCase before after :: sts) := by
  intro st hst id hst'
  -- the update itself, or one of the rest
  rcases List.mem_cons.mp hst with rfl | hst
  · exact (Option.some.inj hst').symm.trans hid
  · exact h st hst id hst'

theorem audit (entity : AuditEntity) (body : AuditBody) (actorType : ActorType)
    (correlationId : String) (now : Time) :
    Solely caseId [auditStmt entity body actorType correlationId now] :=
  of_table (by simp [auditStmt, Stmt.table])

theorem attemptUpdate (before after : RecoveryAttempt) : Solely caseId (before.pendingUpdate after) :=
  of_table fun st hst => by rw [RecoveryAttempt.table_of_mem_pendingUpdate hst]; simp

theorem caseUpdate {before after : RecoveryCase} (hid : before.id = caseId) :
    Solely caseId (before.pendingUpdate after) := by
  intro st hst id hid'
  rw [RecoveryCase.eq_of_mem_pendingUpdate hst] at hid'
  exact (Option.some.inj hid').symm.trans hid

/-- A transition of the case. -/
theorem transition {before after : RecoveryCase} {target : RecoveryCaseStatus}
    {correlationId : String} {reason : Option String} {dirty : List Stmt} {now : Time}
    (hid : before.id = caseId) (hd : Solely caseId dirty) :
    Solely caseId (transitionStmts before after target correlationId reason dirty now) :=
  (cons_update hid hd).append (audit _ _ _ _ _)

/-- A diagnosis updates the case it was begun with. -/
theorem diagnosis (d : Diagnosis) : Solely d.before.id d.stmts := by
  -- every part updates the case the diagnosis was begun with
  have hadmission : Solely d.before.id d.admissionStmts := by
    unfold Diagnosis.admissionStmts
    split
    · exact transition rfl nil
    · exact nil
  have hai : Solely d.before.id d.aiStmts := (audit _ _ _ _ _).append (audit _ _ _ _ _)
  have hrecommendation : Solely d.before.id d.recommendationStmts :=
    (((transition d.admitted_id nil).append hai).append (transition d.diagnosing_id nil)).append
      (transition d.recommended_id nil)
  have hreview : Solely d.before.id d.reviewStmts :=
    ((caseUpdate d.inReview_id).append (audit _ _ _ _ _)).append (transition d.reviewed_id nil)
  have hrequest : Solely d.before.id [d.requestStmt] := audit _ _ _ _ _
  exact ((hrequest.append hadmission).append hrecommendation).append hreview

theorem turnAway (d : Diagnosis) : Solely d.before.id d.turnAwayStmts := by
  have hrequest : Solely d.before.id [d.requestStmt] := audit _ _ _ _ _
  exact hrequest.append (transition rfl nil)

/-- An execution updates its case, whatever becomes of it. -/
theorem claim (x : Execution) : Solely x.recoveryCase.id x.claimStmts :=
  ((audit _ _ _ _ _).append (audit _ _ _ _ _)).append (transition rfl nil)

theorem withhold (x : Execution) (reason : String) (now : Time) :
    Solely x.recoveryCase.id (x.withholdStmts reason now) :=
  (claim x).append (transition rfl nil)

theorem record (c : RecoveryCase) (attempt : RecoveryAttempt) (link : PaymentLinkSnapshot)
    (id : Uuid) (completedAt : Time) (correlationId : String) (now : Time) :
    Solely c.id (recordStmts c attempt link id completedAt correlationId now) := by
  -- the link is another table, and the attempt too
  have hlink : Solely c.id [.insertPaymentRequest (paymentRequestOf id c attempt link)] :=
    of_table (by simp [Stmt.table])
  exact ((cons_update rfl (attemptUpdate _ _)).append hlink).append (audit _ _ _ _ _)

theorem giveUp (c : RecoveryCase) (attempt : RecoveryAttempt) (category : ProviderFailureCategory)
    (message reason correlationId : String) (completedAt now : Time) :
    Solely c.id (giveUpStmts c attempt category message reason correlationId completedAt now) :=
  (attemptUpdate _ _).append (transition rfl nil)

/-- As the cases of an event of a step. -/
theorem cases (h : Solely caseId sts) :
    ∀ id ∈ sts.filterMap Stmt.caseUpdated?, some caseId = some id := by
  intro id hid
  obtain ⟨st, hst, hst'⟩ := List.mem_filterMap.mp hid
  rw [h st hst id hst']

end Solely

/-- Statements over other tables record no link. -/
theorem filterMap_linkInsert?_of_table {sts : List Stmt}
    (h : ∀ st ∈ sts, st.table ≠ .recoveryPaymentRequests) :
    sts.filterMap Stmt.linkInsert? = [] := by
  refine List.filterMap_eq_nil_iff.mpr fun st hst => ?_
  cases st with
  -- a link is recorded by its insert alone
  | insertPaymentRequest l => exact absurd rfl (h _ hst)
  | _ => rfl

/-- Internal statements record no link. -/
theorem Internal.filterMap_linkInsert? {sts : List Stmt} (h : Internal sts) :
    sts.filterMap Stmt.linkInsert? = [] :=
  filterMap_linkInsert?_of_table (h.table_ne (by simp))

theorem Internal.turnAway (d : Diagnosis) : Internal d.turnAwayStmts :=
  (audit _ _ _ _ _).append (transition nil)

theorem Internal.withhold (x : Execution) (reason : String) (now : Time) :
    Internal (x.withholdStmts reason now) :=
  (claim x).append (transition nil)

theorem Internal.giveUp (c : RecoveryCase) (attempt : RecoveryAttempt)
    (category : ProviderFailureCategory) (message reason correlationId : String)
    (completedAt now : Time) :
    Internal (giveUpStmts c attempt category message reason correlationId completedAt now) :=
  (attemptUpdate _ _).append (transition nil)

/-- The record of a link records one. -/
theorem filterMap_linkInsert?_recordStmts (c : RecoveryCase) (attempt : RecoveryAttempt)
    (link : PaymentLinkSnapshot) (id : Uuid) (completedAt : Time) (correlationId : String)
    (now : Time) :
    (recordStmts c attempt link id completedAt correlationId now).filterMap Stmt.linkInsert? =
      [paymentRequestOf id c attempt link] := by
  -- neither the case nor the attempt is a link
  have hattempt : (attempt.pendingUpdate (attempt.succeed link completedAt)).filterMap
      Stmt.linkInsert? = [] :=
    filterMap_linkInsert?_of_table fun st hst => by
      rw [RecoveryAttempt.table_of_mem_pendingUpdate hst]; simp
  rw [recordStmts, recordFlush, List.filterMap_append, List.cons_append, List.filterMap_cons,
    List.filterMap_append, hattempt]
  rfl

/-! ### The kinds of transactions -/

/-- **The whole effect of a delivery**, with the claim of its event: what it has read
decides which of six transactions it is. -/
inductive DeliveryEffect (h : List Event) (db : Db) (event : ParsedWebhookEvent)
    (correlationId : String) : List Stmt → Prop where
  -- nothing to apply: no link is named, or its status says nothing
  | ignored (irrelevant : event.paymentLinkId = none ∨
      event.paymentLinkStatus.all (· ∉ relevantLinkStatuses)) :
      DeliveryEffect h db event correlationId [Delivery.claimStmt event]
  -- the named link is not in the database
  | unmatched (paymentLinkId : String) (t : Time)
      (linkId : event.paymentLinkId = some paymentLinkId)
      (read : .selected (.paymentRequestByProviderReference paymentLinkId) none ∈ h) :
      DeliveryEffect h db event correlationId [Delivery.claimStmt event,
        auditStmt (.webhook (unmatchedLinkEntityName paymentLinkId))
          (.webhookUnmatchedPaymentLink paymentLinkId event.eventType) .system correlationId t]
  -- the link is there and its case is not
  | detached (caseId : Uuid) (read : .selected (.caseForExecution caseId) none ∈ h) :
      DeliveryEffect h db event correlationId [Delivery.claimStmt event]
  -- the case is past EXECUTING: the link is brought up to date, the case is left alone
  | observed (d : Delivery) (t : Time) (eventEq : d.event = event)
      (correlationEq : d.correlationId = correlationId) (known : d.Known h db)
      (movedOn : d.loaded.recoveryCase.status ≠ .executing) :
      DeliveryEffect h db event correlationId (d.observeStmts t)
  | recovered (d : Delivery) (t t' : Time) (eventEq : d.event = event)
      (correlationEq : d.correlationId = correlationId) (known : d.Known h db)
      (executing : d.loaded.recoveryCase.status = .executing) (paid : d.FullyPaid) :
      -- the case is EXECUTING and the link is neither paid nor open
      DeliveryEffect h db event correlationId (d.recoverStmts t t')
  | failed (d : Delivery) (attempt : Option RecoveryAttempt) (t t' : Time)
      (eventEq : d.event = event) (correlationEq : d.correlationId = correlationId)
      (known : d.Known h db) (executing : d.loaded.recoveryCase.status = .executing)
      (unpaid : ¬ d.FullyPaid)
      (read : Table.get? d.loaded.attempts d.link.recoveryAttemptId = attempt ∨
        .selected (.attempt d.link.recoveryAttemptId) attempt ∈ h) :
      DeliveryEffect h db event correlationId (d.failStmts attempt t t')

/-- The kinds of transactions, by the tables they write. -/
inductive TxnKind (h : List Event) (db : Db) : List Stmt → Prop where
  | internal {sts : List Stmt} (op : NotDelivery h) (tables : Internal sts) : TxnKind h db sts
  | ingested (i : Ingestion) (rest : List Stmt) (op : NotDelivery h) (known : i.Known h)
      (tables : Internal rest) : TxnKind h db (i.stmts ++ rest)
  | recorded (c : RecoveryCase) (attempt : RecoveryAttempt) (made : Option PaymentLinkSnapshot)
      (link : PaymentLinkSnapshot) (id : Uuid) (completedAt : Time) (correlationId : String)
      (t : Time) (op : NotDelivery h)
      (inHand : phase h = .called c attempt made (.ok link) ∨
        phase h = .reconciled c attempt made (.ok (some link)))
      (caseSeen : db.CaseSeen c) :
      TxnKind h db (recordStmts c attempt link id completedAt correlationId t)
  | delivered {sts : List Stmt} (event : ParsedWebhookEvent) (correlationId : String)
      (started : .started (.webhook event correlationId) ∈ h)
      (effect : DeliveryEffect h db event correlationId sts) : TxnKind h db sts

/-- **Every transaction is of one of the four kinds.** -/
theorem Txn.kind {h : List Event} {db : Db} {sts : List Stmt} (htxn : Txn h db sts) :
    TxnKind h db sts := by
  cases htxn with
  -- an ingestion without a case has nothing behind it
  | ingested i op idle known =>
    rw [← List.append_nil i.stmts]
    exact .ingested i [] op.toNotDelivery known .nil
  | ingestedWithCase i id createdAt t' op idle known failed =>
    exact .ingested i _ op.toNotDelivery known (.cons (.inl rfl) (.audit _ _ _ _ _))
  | deduplicated payment key correlationId t op => exact .internal op.toNotDelivery (.audit _ _ _ _ _)
  | opened openings correlationId op =>
    exact .internal op.toNotDelivery (.openings openings correlationId)
  -- diagnoses
  | turnedAway d op => exact .internal op (.cons (.inr (.inr rfl)) (.transition .nil))
  | diagnosed d op => exact .internal op (.diagnosis d)
  -- executions, before and after the call
  | claimed x op => exact .internal op.toNotDelivery (.claim x)
  | withheld x reason t op =>
    exact .internal op.toNotDelivery ((Internal.claim x).append (.transition .nil))
  | attempted recoveryCase payment correlationId reference id startedAt createdAt t op =>
    exact .internal op.toNotDelivery (.cons (.inr (.inl rfl)) (.audit _ _ _ _ _))
  | recorded c attempt made link id completedAt correlationId t op inHand caseSeen =>
    exact .recorded c attempt made link id completedAt correlationId t op.toNotDelivery inHand caseSeen
  | reconciled c attempt made found error link searchError correlationId t t' op =>
    exact .internal op.toNotDelivery ((Internal.audit _ _ _ _ _).append (.audit _ _ _ _ _))
  | gaveUp c attempt made category message reason correlationId completedAt t op =>
    exact .internal op.toNotDelivery ((Internal.attemptUpdate _ _).append (.transition .nil))
  -- deliveries
  | ignored event correlationId idle started irrelevant =>
    exact .delivered event correlationId started (.ignored irrelevant)
  | unmatched event correlationId paymentLinkId t idle started linkId read =>
    exact .delivered event correlationId started (.unmatched paymentLinkId t linkId read)
  | detached event correlationId caseId idle started read =>
    exact .delivered event correlationId started (.detached caseId read)
  | observed d t idle known movedOn =>
    exact .delivered d.event d.correlationId known.started (.observed d t rfl rfl known movedOn)
  | recovered d t t' idle known executing paid =>
    exact .delivered d.event d.correlationId known.started
      (.recovered d t t' rfl rfl known executing paid)
  | failed d attempt t t' idle known executing unpaid read =>
    exact .delivered d.event d.correlationId known.started
      (.failed d attempt t t' rfl rfl known executing unpaid read)
  | cycled cycleId body correlationId t op => exact .internal op.toNotDelivery (.audit _ _ _ _ _)

/-! ### The ledger of events -/

/-- The dedup key a statement claims. -/
def Stmt.claim? : Stmt → Option String
  | .insertProcessedWebhookEvent row => some row.dedupKey
  | _ => none

/-- The keys in the ledger. -/
def Db.dedupKeys (db : Db) : List String :=
  db.processedWebhookEvents.map ProcessedWebhookEvent.dedupKey

/-- A key is claimed if it is in the ledger. -/
theorem Db.claimed_iff {db : Db} {key : String} : db.Claimed key ↔ key ∈ db.dedupKeys := by
  rw [Claimed, Stmt.taken, List.any_eq_true, dedupKeys, List.mem_map]
  simp only [decide_eq_true_eq]

/-- The ledger after some statements. -/
theorem Db.dedupKeys_applyAll {db : Db} {sts : List Stmt} :
    (Store.applyAll sts db).dedupKeys = db.dedupKeys ++ sts.filterMap Stmt.claim? := by
  refine Store.applyAll_adds Db.dedupKeys fun st db => ?_
  -- one insert adds one key, and nothing else touches the ledger
  cases st with
  | insertProcessedWebhookEvent row => exact List.map_append
  | _ => exact (List.append_nil _).symm

/-- What is claimed after some statements. -/
theorem Db.claimed_applyAll {db : Db} {sts : List Stmt} {key : String} :
    (Store.applyAll sts db).Claimed key ↔ db.Claimed key ∨ key ∈ sts.filterMap Stmt.claim? := by
  rw [claimed_iff, claimed_iff, dedupKeys_applyAll, List.mem_append]

/-- Only an insert into the ledger claims a key. -/
theorem claim?_of_table {st : Stmt} (h : st.table ≠ .processedWebhookEvents) :
    st.claim? = none := by
  cases st <;> first | rfl | exact absurd rfl h

theorem filterMap_claim?_of_table {sts : List Stmt}
    (h : ∀ st ∈ sts, st.table ≠ .processedWebhookEvents) : sts.filterMap Stmt.claim? = [] :=
  List.filterMap_eq_nil_iff.mpr fun st hst => claim?_of_table (h st hst)

/-- A delivery claims its key first, and writes nothing else into the ledger. -/
theorem Delivery.claim?_observeStmts (d : Delivery) (now : Time) :
    (d.observeStmts now).filterMap Stmt.claim? = [d.event.dedupKey] := by
  -- the update of the link claims nothing
  have hlink : (d.link.pendingUpdate d.observed).filterMap Stmt.claim? = [] :=
    filterMap_claim?_of_table fun st hst => by
      rw [RecoveryPaymentRequest.table_of_mem_pendingUpdate hst]
      simp
  rw [observeStmts, List.filterMap_cons, List.filterMap_append, hlink]
  rfl

theorem Delivery.claim?_recoverStmts (d : Delivery) (now now' : Time) :
    (d.recoverStmts now now').filterMap Stmt.claim? = [d.event.dedupKey] := by
  rw [recoverStmts, List.filterMap_append, d.claim?_observeStmts,
    filterMap_claim?_of_table (Internal.table_ne (.transition .nil) (by simp))]
  rfl

theorem Delivery.claim?_failStmts (d : Delivery) (attempt : Option RecoveryAttempt)
    (now now' : Time) :
    (d.failStmts attempt now now').filterMap Stmt.claim? = [d.event.dedupKey] := by
  -- nor do the case and its attempt
  have hattempt : Internal (d.failureStmts attempt) :=
    fun st hst => .inr (.inl (d.table_failureStmts hst))
  rw [failStmts, List.filterMap_append, d.claim?_observeStmts,
    filterMap_claim?_of_table (Internal.table_ne (.transition hattempt) (by simp))]
  rfl

/-- A delivery claims its own key, once. -/
theorem DeliveryEffect.claims {h : List Event} {db : Db} {event : ParsedWebhookEvent}
    {correlationId : String} {sts : List Stmt} (he : DeliveryEffect h db event correlationId sts) :
    sts.filterMap Stmt.claim? = [event.dedupKey] := by
  cases he with
  -- the three that leave the case alone are as they are written
  | ignored => rfl
  | unmatched => rfl
  | detached => rfl
  | observed d t eventEq => rw [d.claim?_observeStmts, eventEq]
  | recovered d t t' eventEq => rw [d.claim?_recoverStmts, eventEq]
  | failed d attempt t t' eventEq => rw [d.claim?_failStmts, eventEq]

/-- The tables the record of a link writes. -/
theorem table_recordStmts {c : RecoveryCase} {attempt : RecoveryAttempt}
    {link : PaymentLinkSnapshot} {id : Uuid} {completedAt : Time} {correlationId : String}
    {now : Time} {st : Stmt}
    (hst : st ∈ recordStmts c attempt link id completedAt correlationId now) :
    st.table = .recoveryCases ∨ st.table = .recoveryAttempts ∨
      st.table = .recoveryPaymentRequests ∨ st.table = .auditEvents := by
  rw [recordStmts, recordFlush, List.cons_append, List.cons_append, List.mem_cons,
    List.append_assoc, List.mem_append] at hst
  -- the case, the attempt, then the link and the event of it
  rcases hst with rfl | hst | hst
  · exact .inl rfl
  · exact .inr (.inl (RecoveryAttempt.table_of_mem_pendingUpdate hst))
  · simp only [List.cons_append, List.nil_append, List.mem_cons, List.not_mem_nil,
      or_false] at hst
    rcases hst with rfl | rfl
    · exact .inr (.inr (.inl rfl))
    · exact .inr (.inr (.inr rfl))

/-- **Only a delivery claims a key**, and with its whole effect. -/
theorem TxnKind.claims_iff {h : List Event} {db : Db} {sts : List Stmt} {key : String}
    (hk : TxnKind h db sts) : key ∈ sts.filterMap Stmt.claim? ↔
      ∃ event correlationId, .started (.webhook event correlationId) ∈ h ∧
        event.dedupKey = key ∧ DeliveryEffect h db event correlationId sts := by
  refine ⟨fun hmem => ?_, fun ⟨event, correlationId, _, hkey, heffect⟩ => ?_⟩
  · -- a transaction that writes no row of the ledger claims no key
    have hno : (∀ st ∈ sts, st.table ≠ .processedWebhookEvents) → False := fun hno => by
      rw [filterMap_claim?_of_table hno] at hmem
      cases hmem
    cases hk with
    | internal op tables => exact (hno (tables.table_ne (by simp))).elim
    | ingested i rest op known tables =>
      -- an ingestion writes customers, payments and what opens a case
      refine (hno fun st hst he => ?_).elim
      rcases List.mem_append.mp hst with hst | hst
      · have ht := table_paymentStmts hst
        simp [he] at ht
      · exact tables.table_ne (by simp) st hst he
    | recorded c attempt made link id completedAt correlationId t =>
      refine (hno fun st hst he => ?_).elim
      have ht := table_recordStmts hst
      simp [he] at ht
    -- a delivery claims the key of its own event
    | delivered event correlationId started effect =>
      rw [effect.claims, List.mem_singleton] at hmem
      exact ⟨event, correlationId, started, hmem.symm, effect⟩
  · rw [heffect.claims, hkey]
    exact List.mem_singleton_self key

/-! ### Customers and payments -/

/-- The customers after an ingestion: its customer is there, and counted. -/
def Ingestion.customersAfter (i : Ingestion) (customers : Table Customer) : Table Customer :=
  Table.update (if i.newCustomer then customers ++ [i.customer] else customers) i.customer.id
    (i.customer.write (i.customer.countPayment i.request.status))

/-- An ingestion counts its payment for the customer it has found or made. -/
theorem Ingestion.customers_stmts (i : Ingestion) (db : Db) :
    (Store.applyAll i.stmts db).customers = i.customersAfter db.customers := by
  -- the customer is inserted first if it is new
  unfold stmts paymentStmts customersAfter
  cases i.newCustomer <;> rfl

/-- It adds one payment. -/
theorem Ingestion.payments_stmts (i : Ingestion) (db : Db) :
    (Store.applyAll i.stmts db).payments = db.payments ++ [i.payment] := by
  unfold stmts paymentStmts
  cases i.newCustomer <;> rfl

theorem Ingestion.insertPayment_mem (i : Ingestion) : .insertPayment i.payment ∈ i.stmts := by
  simp [stmts, paymentStmts]

theorem Ingestion.updateCustomer_mem (i : Ingestion) :
    .updateCustomer i.customer (i.customer.countPayment i.request.status) ∈ i.stmts := by
  simp [stmts, paymentStmts, payment]

theorem Ingestion.insertCustomer_mem {i : Ingestion} (hi : i.newCustomer = true) :
    .insertCustomer i.customer ∈ i.stmts := by
  simp [stmts, paymentStmts, hi]

/-- What a transaction does to the customers and the payments. -/
inductive IntakeEffect (h : List Event) (db : Db) (sts : List Stmt) : Prop where
  | same (customers : (Store.applyAll sts db).customers = db.customers)
      (payments : (Store.applyAll sts db).payments = db.payments)
  | ingested (i : Ingestion) (known : i.Known h) (mem : ∀ st ∈ i.stmts, st ∈ sts)
      (checked : Store.checkAll i.stmts db = none)
      (customers : (Store.applyAll sts db).customers = i.customersAfter db.customers)
      (payments : (Store.applyAll sts db).payments = db.payments ++ [i.payment])

/-- Statements over neither table. -/
theorem IntakeEffect.of_tables {h : List Event} {db : Db} {sts : List Stmt}
    (ht : ∀ st ∈ sts, st.table ≠ .customers ∧ st.table ≠ .payments) : IntakeEffect h db sts :=
  .same (Stmt.frame_customers fun st hst => (ht st hst).1)
    (Stmt.frame_payments fun st hst => (ht st hst).2)

/-- A delivery leaves customers and payments alone. -/
theorem DeliveryEffect.table_ne {h : List Event} {db : Db} {event : ParsedWebhookEvent}
    {correlationId : String} {sts : List Stmt} (he : DeliveryEffect h db event correlationId sts) :
    ∀ st ∈ sts, st.table ≠ .customers ∧ st.table ≠ .payments := by
  -- the cases and attempts a delivery may write are neither table
  have hinternal : ∀ {sts' : List Stmt}, Internal sts' →
      ∀ st ∈ sts', st.table ≠ .customers ∧ st.table ≠ .payments := fun hi st hst =>
    ⟨hi.table_ne (by simp) st hst, hi.table_ne (by simp) st hst⟩
  have hobserve : ∀ (d : Delivery) (now : Time), ∀ st ∈ d.observeStmts now,
      st.table ≠ .customers ∧ st.table ≠ .payments := fun d now st hst => by
    rcases d.table_observeStmts hst with h | h | h <;> rw [h] <;> simp
  cases he with
  | ignored => simp [Delivery.claimStmt, Stmt.table]
  | unmatched => simp [Delivery.claimStmt, auditStmt, Stmt.table]
  | detached => simp [Delivery.claimStmt, Stmt.table]
  | observed d t => exact hobserve d t
  -- the link first, then the case, and in a failure its attempt
  | recovered d t t' =>
    intro st hst
    rcases List.mem_append.mp hst with hst | hst
    · exact hobserve d t st hst
    · exact hinternal (.transition .nil) st hst
  | failed d attempt t t' =>
    intro st hst
    rcases List.mem_append.mp hst with hst | hst
    · exact hobserve d t st hst
    · exact hinternal (.transition fun st hst => .inr (.inl (d.table_failureStmts hst))) st hst

/-- **What any transaction does to the customers and the payments.** -/
theorem TxnKind.intakeEffect {h : List Event} {db : Db} {sts : List Stmt} (hk : TxnKind h db sts)
    (hc : Store.checkAll sts db = none) : IntakeEffect h db sts := by
  cases hk with
  | internal op tables =>
    exact .of_tables fun st hst =>
      ⟨tables.table_ne (by simp) st hst, tables.table_ne (by simp) st hst⟩
  | ingested i rest op known tables =>
    -- the payment comes first, so it was checked on the database as it was
    rw [Store.checkAll_append, Option.or_eq_none_iff] at hc
    refine .ingested i known (fun st hst => List.mem_append_left _ hst) hc.1 ?_ ?_
    · rw [Store.applyAll_append, Stmt.frame_customers (tables.table_ne (by simp)), i.customers_stmts]
    · rw [Store.applyAll_append, Stmt.frame_payments (tables.table_ne (by simp)), i.payments_stmts]
  | recorded c attempt made link id completedAt correlationId t =>
    refine .of_tables fun st hst => ?_
    rcases table_recordStmts hst with h | h | h | h <;> rw [h] <;> simp
  | delivered event correlationId started effect => exact .of_tables effect.table_ne

/-! ### Payment links -/

/-- Writing a row back changes nothing. -/
theorem RecoveryPaymentRequest.write_self (before row : RecoveryPaymentRequest) :
    before.write before row = row := by simp [write]

/-- The links after the pending update of one of them, if there is one. -/
theorem RecoveryPaymentRequest.links_pendingUpdate (before after : RecoveryPaymentRequest) (db : Db) :
    (Store.applyAll (before.pendingUpdate after) db).recoveryPaymentRequests =
      Table.update db.recoveryPaymentRequests before.id (before.write after) := by
  unfold pendingUpdate
  split
  · -- an update that changes nothing is not written
    next h =>
    rw [h, Table.update]
    simp only [write_self, ite_self, List.map_id']
    rfl
  · rfl

/-- What a delivery does to the links. -/
theorem Delivery.links_observeStmts (d : Delivery) (now : Time) (db : Db) :
    (Store.applyAll (d.observeStmts now) db).recoveryPaymentRequests =
      Table.update db.recoveryPaymentRequests d.link.id (d.link.write d.observed) := by
  -- the claim and the audit event leave the links alone
  rw [observeStmts, Store.applyAll_cons, Store.applyAll_append,
    Stmt.frame_recoveryPaymentRequests (by simp [auditStmt, Stmt.table])]
  exact RecoveryPaymentRequest.links_pendingUpdate _ _ _

/-- What the record of a link does to the links. -/
theorem links_recordStmts (c : RecoveryCase) (attempt : RecoveryAttempt)
    (link : PaymentLinkSnapshot) (id : Uuid) (completedAt : Time) (correlationId : String)
    (now : Time) (db : Db) :
    (Store.applyAll (recordStmts c attempt link id completedAt correlationId now)
      db).recoveryPaymentRequests =
      db.recoveryPaymentRequests ++ [paymentRequestOf id c attempt link] := by
  -- the case and the attempt leave the links alone
  have hframe : (Store.applyAll (Stmt.updateCase c c.counted ::
      attempt.pendingUpdate (attempt.succeed link completedAt)) db).recoveryPaymentRequests =
      db.recoveryPaymentRequests :=
    Stmt.frame_recoveryPaymentRequests fun st hst => by
      rcases List.mem_cons.mp hst with rfl | hst
      · simp [Stmt.table]
      · rw [RecoveryAttempt.table_of_mem_pendingUpdate hst]
        simp
  rw [recordStmts, recordFlush, Store.applyAll_append, Store.applyAll_append]
  change (Store.applyAll (_ :: _) db).recoveryPaymentRequests ++ [_] = _
  rw [hframe]

/-- What a delivery about a known link commits: it changes the link, and settles the
case if it has found it executing. -/
inductive Settles (d : Delivery) : List Stmt → Prop where
  | observed (t : Time) (movedOn : d.loaded.recoveryCase.status ≠ .executing) :
      Settles d (d.observeStmts t)
  | recovered (t t' : Time) (executing : d.loaded.recoveryCase.status = .executing)
      (paid : d.FullyPaid) : Settles d (d.recoverStmts t t')
  | failed (attempt : Option RecoveryAttempt) (t t' : Time)
      (executing : d.loaded.recoveryCase.status = .executing) (unpaid : ¬ d.FullyPaid) :
      Settles d (d.failStmts attempt t t')

/-- Whatever becomes of the case, the link is brought up to date once. -/
theorem Settles.links {d : Delivery} {sts : List Stmt} (h : Settles d sts) (db : Db) :
    (Store.applyAll sts db).recoveryPaymentRequests =
      Table.update db.recoveryPaymentRequests d.link.id (d.link.write d.observed) := by
  cases h with
  | observed t => exact d.links_observeStmts t db
  | recovered t t' =>
    -- behind the observation only the case is written
    rw [Delivery.recoverStmts, Store.applyAll_append, Stmt.frame_recoveryPaymentRequests
      (Internal.table_ne (.transition .nil) (by simp)), d.links_observeStmts]
  | failed attempt t t' =>
    -- and here the attempt as well
    have hattempt : Internal (d.failureStmts attempt) :=
      fun st hst => .inr (.inl (d.table_failureStmts hst))
    rw [Delivery.failStmts, Store.applyAll_append, Stmt.frame_recoveryPaymentRequests
      (Internal.table_ne (.transition hattempt) (by simp)), d.links_observeStmts]

/-- And the key of the event is claimed once. -/
theorem Settles.claims {d : Delivery} {sts : List Stmt} (h : Settles d sts) :
    sts.filterMap Stmt.claim? = [d.event.dedupKey] := by
  cases h with
  | observed t => exact d.claim?_observeStmts t
  | recovered t t' => exact d.claim?_recoverStmts t t'
  | failed attempt t t' => exact d.claim?_failStmts attempt t t'

/-- What a transaction does to the payment links. -/
inductive LinkEffect (h : List Event) (db : Db) (sts : List Stmt) : Prop where
  | same (links : (Store.applyAll sts db).recoveryPaymentRequests = db.recoveryPaymentRequests)
  | recorded (c : RecoveryCase) (attempt : RecoveryAttempt) (made : Option PaymentLinkSnapshot)
      (link : PaymentLinkSnapshot) (id : Uuid) (completedAt : Time) (correlationId : String)
      (t : Time) (eq : sts = recordStmts c attempt link id completedAt correlationId t)
      (inHand : phase h = .called c attempt made (.ok link) ∨
        phase h = .reconciled c attempt made (.ok (some link)))
      (links : (Store.applyAll sts db).recoveryPaymentRequests =
        db.recoveryPaymentRequests ++ [paymentRequestOf id c attempt link])
  | settled (d : Delivery) (known : d.Known h db) (settles : Settles d sts)
      (links : (Store.applyAll sts db).recoveryPaymentRequests =
        Table.update db.recoveryPaymentRequests d.link.id (d.link.write d.observed))

/-- **What any transaction does to the payment links.** -/
theorem TxnKind.linkEffect {h : List Event} {db : Db} {sts : List Stmt} (hk : TxnKind h db sts) :
    LinkEffect h db sts := by
  cases hk with
  | internal op tables =>
    exact .same (Stmt.frame_recoveryPaymentRequests (tables.table_ne (by simp)))
  | ingested i rest op known tables =>
    -- an ingestion writes no link
    refine .same (Stmt.frame_recoveryPaymentRequests fun st hst he => ?_)
    rcases List.mem_append.mp hst with hst | hst
    · have ht := table_paymentStmts hst
      simp [he] at ht
    · exact tables.table_ne (by simp) st hst he
  | recorded c attempt made link id completedAt correlationId t op inHand =>
    exact .recorded c attempt made link id completedAt correlationId t rfl inHand
      (links_recordStmts c attempt link id completedAt correlationId t db)
  | delivered event correlationId started effect =>
    -- a delivery changes the link it knows, and only that
    cases effect with
    | ignored => exact .same rfl
    | unmatched => exact .same rfl
    | detached => exact .same rfl
    | observed d t _ _ known movedOn =>
      exact .settled d known (.observed t movedOn) (d.links_observeStmts t db)
    | recovered d t t' _ _ known executing paid =>
      have hs : Settles d (d.recoverStmts t t') := .recovered t t' executing paid
      exact .settled d known hs (hs.links db)
    | failed d attempt t t' _ _ known executing unpaid =>
      have hs : Settles d (d.failStmts attempt t t') := .failed attempt t t' executing unpaid
      exact .settled d known hs (hs.links db)

end RecoverAI
