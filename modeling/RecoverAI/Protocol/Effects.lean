import RecoverAI.Protocol.Rules

/-!
# What a transaction does to the tables

The rules of `Txn` say which statements are committed; here it is said once what they
do. A recovery case is left alone, opened, or taken by one of the eight moves of
`CaseStep` from the very row that was read (`Txn.caseEffect`). Every invariant of cases
is derived from this inversion.
-/

namespace RecoverAI

open Interleave

/-! ### Rewriting one case -/

/-- The statements turn the case `c` into `c'` and leave the others alone. -/
def Turns (sts : List Stmt) (c c' : RecoveryCase) : Prop :=
  ∀ db : Db, db.recoveryCases.get? c.id = some c → ∀ id,
    (Store.applyAll sts db).recoveryCases.get? id =
      if c.id = id then some c' else db.recoveryCases.get? id

namespace Turns

variable {sts sts' : List Stmt} {c c' c'' : RecoveryCase}

/-- Statements over other tables. -/
theorem of_frame (h : ∀ st ∈ sts, st.table ≠ .recoveryCases) : Turns sts c c := by
  intro db hc id
  -- the row keeps its place in the table
  rw [Stmt.frame_recoveryCases h]
  split
  · next he => rw [← he, hc]
  · rfl

/-- **One after the other.** -/
theorem append (h : Turns sts c c') (h' : Turns sts' c' c'') (hid : c'.id = c.id) :
    Turns (sts ++ sts') c c'' := by
  intro db hc id
  -- the second part starts with what the first has left
  have hc' : (Store.applyAll sts db).recoveryCases.get? c'.id = some c' := by
    rw [hid, h db hc, if_pos rfl]
  rw [Store.applyAll_append, h' _ hc', hid, h db hc]
  split <;> rfl

/-- The fields no update writes. -/
structure SameRoot (c c' : RecoveryCase) : Prop where
  id : c'.id = c.id
  paymentId : c'.paymentId = c.paymentId
  revenueAtRisk : c'.revenueAtRisk = c.revenueAtRisk
  createdAt : c'.createdAt = c.createdAt

/-- A row updated by the session that read it becomes the object of the session. -/
theorem write_eq {after : RecoveryCase} (h : SameRoot c after) :
    c.write after c = { after with version := c.version + 1 } := by
  obtain ⟨hid, hp, hr, ht⟩ := h
  simp [RecoveryCase.write, hid, hp, hr, ht]

/-- An update by the session that read the row. -/
theorem updateCase {after : RecoveryCase} (h : SameRoot c after) :
    Turns [.updateCase c after] c { after with version := c.version + 1 } := by
  intro db hc id
  change Table.get? (Table.update db.recoveryCases c.id (c.write after)) id = _
  -- the update writes the row with this id, if it is there
  rw [Table.get?_update (RecoveryCase.keepsKey_write _ _)]
  split
  · next he => rw [← he, hc, Option.map_some, write_eq h]
  · rfl

/-- A transition. -/
theorem transitionStmts {after : RecoveryCase} {target : RecoveryCaseStatus}
    {correlationId : String} {reason : Option String} {dirty : List Stmt} {now : Time}
    (h : SameRoot c after) (hd : ∀ st ∈ dirty, st.table ≠ .recoveryCases) :
    Turns (RecoverAI.transitionStmts c after target correlationId reason dirty now) c
      (c.moved after target) := by
  -- the update of the case is the first statement; the rest leaves the cases alone
  have hupdate : Turns [.updateCase c { after with status := target }] c (c.moved after target) :=
    updateCase ⟨h.id, h.paymentId, h.revenueAtRisk, h.createdAt⟩
  refine hupdate.append (of_frame fun st hst => ?_) h.id
  rcases List.mem_append.mp hst with hst | hst
  · exact hd st hst
  · rw [List.mem_singleton.mp hst]
    simp [auditStmt, Stmt.table]

/-- A case that was turned into a later version of itself. -/
theorem outdated {db : Db} (h : Turns sts c c') (hc : db.recoveryCases.get? c.id = some c)
    (hv : c.version < c'.version) : (Store.applyAll sts db).Outdated c :=
  ⟨c', by rw [h db hc, if_pos rfl], hv⟩

/-- The pending update of an object. -/
theorem pendingUpdate {after : RecoveryCase} (h : SameRoot c after) :
    Turns (c.pendingUpdate after) c (c.flushed after) := by
  unfold RecoveryCase.pendingUpdate RecoveryCase.flushed
  -- an object that was not changed is not written
  by_cases he : after = c
  · rw [if_pos he, if_pos he, he]
    exact of_frame (by simp)
  · rw [if_neg he, if_neg he]
    exact updateCase h

end Turns

/-- The first update of a case in a checked transaction finds the row that was read. -/
theorem Db.CaseSeen.of_checkAll {db : Db} {c after : RecoveryCase} {pre post : List Stmt}
    (h : db.CaseSeen c) (hpre : ∀ st ∈ pre, st.table ≠ .recoveryCases)
    (hc : Store.checkAll (pre ++ .updateCase c after :: post) db = none) :
    db.recoveryCases.get? c.id = some c := by
  rw [Store.checkAll_append, Option.or_eq_none_iff, Store.checkAll_cons_eq_none] at hc
  have hframe : (Store.applyAll pre db).recoveryCases = db.recoveryCases :=
    Stmt.frame_recoveryCases hpre
  -- what comes before the update has left the row as it was seen
  have hseen : (Store.applyAll pre db).CaseSeen c := by
    obtain ⟨r, hr, hb⟩ := h
    exact ⟨r, by rw [hframe]; exact hr, hb⟩
  rw [← hframe]
  exact hseen.of_check hc.2.1

/-! ### The transactions that move a case -/

namespace Turns

/-- Audit events and the like before the statements that count. -/
theorem of_prefix {pre sts : List Stmt} {c c' : RecoveryCase}
    (hpre : ∀ st ∈ pre, st.table ≠ .recoveryCases) (h : Turns sts c c') :
    Turns (pre ++ sts) c c' :=
  (of_frame hpre).append h rfl

/-- The same, behind the statements that count. -/
theorem of_suffix {post sts : List Stmt} {c c' : RecoveryCase} (h : Turns sts c c')
    (hid : c'.id = c.id) (hpost : ∀ st ∈ post, st.table ≠ .recoveryCases) :
    Turns (sts ++ post) c c' :=
  h.append (of_frame hpost) hid

theorem SameRoot.refl (c : RecoveryCase) : SameRoot c c := ⟨rfl, rfl, rfl, rfl⟩

end Turns

namespace Diagnosis

variable (d : Diagnosis)

@[simp] theorem admitted_id : d.admitted.id = d.before.id := by
  -- a case that is not DISCOVERED is admitted as it is
  unfold admitted
  split <;> rfl

@[simp] theorem diagnosing_id : d.diagnosing.id = d.before.id := d.admitted_id

@[simp] theorem recommended_id : d.recommended.id = d.before.id := d.admitted_id

@[simp] theorem inReview_id : d.inReview.id = d.before.id := d.admitted_id

@[simp] theorem reviewed_id : d.reviewed.id = d.before.id := by
  unfold reviewed RecoveryCase.flushed
  split <;> exact d.admitted_id

/-- The door writes the status, the eligibility and the version, and nothing else. -/
theorem admitted_eq : d.admitted =
    { d.before with
      status := d.admitted.status, eligible := d.admitted.eligible
      version := d.admitted.version } := by
  unfold admitted
  split <;> rfl

/-- The review writes the policy version and the version, and nothing else. -/
theorem reviewed_eq : d.reviewed =
    { d.inReview with
      policyVersion := d.reviewed.policyVersion, version := d.reviewed.version } := by
  unfold reviewed RecoveryCase.flushed versioned
  split <;> rfl

/-- The door raises the version or leaves it. -/
theorem before_version_le : d.before.version ≤ d.admitted.version := by
  unfold admitted
  split
  · exact Int.le.intro 1 rfl
  · exact le_rfl

/-- So does the review. -/
theorem inReview_version_le : d.inReview.version ≤ d.reviewed.version := by
  unfold reviewed RecoveryCase.flushed
  split
  · exact le_rfl
  · exact Int.le.intro 1 rfl

section After

@[simp] theorem after_id : d.after.id = d.before.id := d.reviewed_id

@[simp] theorem after_status : d.after.status = d.next.1 := rfl

@[simp] theorem after_recommendedAction :
    d.after.recommendedAction = some d.outcome.recommendation.recommendedAction := by
  rw [after, RecoveryCase.moved, reviewed_eq]
  rfl

@[simp] theorem after_recoveryConfidence :
    d.after.recoveryConfidence = some d.outcome.recommendation.recoveryConfidence := by
  rw [after, RecoveryCase.moved, reviewed_eq]
  rfl

@[simp] theorem after_eligible : d.after.eligible = d.admitted.eligible := by
  rw [after, RecoveryCase.moved, reviewed_eq]
  rfl

@[simp] theorem after_recoveredAmount :
    d.after.recoveredAmount = d.before.recoveredAmount := by
  rw [after, RecoveryCase.moved, reviewed_eq]
  change d.admitted.recoveredAmount = _
  rw [admitted_eq]

@[simp] theorem after_customerContactCount :
    d.after.customerContactCount = d.before.customerContactCount := by
  rw [after, RecoveryCase.moved, reviewed_eq]
  change d.admitted.customerContactCount = _
  rw [admitted_eq]

@[simp] theorem after_currentAttemptNumber :
    d.after.currentAttemptNumber = d.before.currentAttemptNumber := by
  rw [after, RecoveryCase.moved, reviewed_eq]
  change d.admitted.currentAttemptNumber = _
  rw [admitted_eq]

@[simp] theorem after_revenueAtRisk : d.after.revenueAtRisk = d.before.revenueAtRisk := by
  rw [after, RecoveryCase.moved, reviewed_eq]
  change d.admitted.revenueAtRisk = _
  rw [admitted_eq]

@[simp] theorem after_paymentId : d.after.paymentId = d.before.paymentId := by
  rw [after, RecoveryCase.moved, reviewed_eq]
  change d.admitted.paymentId = _
  rw [admitted_eq]

@[simp] theorem after_createdAt : d.after.createdAt = d.before.createdAt := by
  rw [after, RecoveryCase.moved, reviewed_eq]
  change d.admitted.createdAt = _
  rw [admitted_eq]

/-- A diagnosis raises the version of its case. -/
theorem before_version_lt : d.before.version < d.after.version := by
  -- the version rises at the door or not, three times in between, at the review or not, and at the
  -- end
  have hbefore := d.before_version_le
  have hreview := d.inReview_version_le
  have hrecommended : d.inReview.version = d.admitted.version + 1 + 1 + 1 := rfl
  have hafter : d.after.version = d.reviewed.version + 1 := rfl
  omega

end After

/-- What the door does to the case. -/
theorem turns_admissionStmts : Turns d.admissionStmts d.before d.admitted := by
  unfold admissionStmts admitted
  -- only a case in DISCOVERED is written at the door
  split
  · exact .transitionStmts ⟨rfl, rfl, rfl, rfl⟩ (by simp)
  · exact .of_frame (by simp)

/-- From the door to the review, in three transitions. -/
theorem turns_recommendationStmts : Turns d.recommendationStmts d.admitted d.inReview := by
  -- DIAGNOSING, RECOMMENDED, POLICY_REVIEW: each starts from the row of the one before
  have h₁ : Turns (transitionStmts d.admitted d.admitted .diagnosing d.correlationId none [] d.t₂)
      d.admitted d.diagnosing := .transitionStmts (.refl _) (by simp)
  have h₂ : Turns (transitionStmts d.diagnosing
      (d.diagnosing.withRecommendation d.outcome.recommendation) .recommended d.correlationId none []
      d.t₅) d.diagnosing d.recommended := .transitionStmts ⟨rfl, rfl, rfl, rfl⟩ (by simp)
  have h₃ : Turns (transitionStmts d.recommended d.recommended .policyReview d.correlationId none []
      d.t₆) d.recommended d.inReview := .transitionStmts (.refl _) (by simp)
  -- what the AI said is audited between the first two
  have hai : ∀ st ∈ d.aiStmts, st.table ≠ .recoveryCases := by
    simp [aiStmts, auditStmt, Stmt.table]
  exact ((h₁.of_suffix rfl hai).append h₂ rfl).append h₃ rfl

/-- What the review does to the case. -/
theorem turns_reviewStmts : Turns d.reviewStmts d.inReview d.after := by
  -- the version of the policy, if it is new, and then the outcome
  have h₁ : Turns (d.inReview.pendingUpdate d.versioned) d.inReview d.reviewed :=
    .pendingUpdate ⟨rfl, rfl, rfl, rfl⟩
  have h₂ : Turns (transitionStmts d.reviewed d.reviewed d.next.1 d.correlationId d.next.2 [] d.t₈)
      d.reviewed d.after := .transitionStmts (.refl _) (by simp)
  have hpolicy : ∀ st ∈ [d.policyStmt], st.table ≠ .recoveryCases := by
    simp [policyStmt, auditStmt, Stmt.table]
  exact (h₁.of_suffix (by simp) hpolicy).append h₂ (by simp)

/-- **A diagnosis turns the case it has read into the one it reports.** -/
theorem turns_stmts : Turns d.stmts d.before d.after := by
  have hrequest : ∀ st ∈ [d.requestStmt], st.table ≠ .recoveryCases := by
    simp [requestStmt, auditStmt, Stmt.table]
  exact ((d.turns_admissionStmts.of_prefix hrequest).append d.turns_recommendationStmts
    (by simp)).append d.turns_reviewStmts (by simp)

/-- A case that is not eligible is turned away. -/
theorem turns_turnAwayStmts : Turns d.turnAwayStmts d.before d.turnedAway := by
  have h : Turns (transitionStmts d.before { d.before with eligible := false } .ineligible
      d.correlationId (some "Payment is not in a failed state, or has a non-positive amount.") []
      d.t₁) d.before d.turnedAway := .transitionStmts ⟨rfl, rfl, rfl, rfl⟩ (by simp)
  have hrequest : ∀ st ∈ [d.requestStmt], st.table ≠ .recoveryCases := by
    simp [requestStmt, auditStmt, Stmt.table]
  exact h.of_prefix hrequest

end Diagnosis

/-- The case after a withheld execution. -/
def Execution.withheld (x : Execution) : RecoveryCase := x.claimed.moved x.claimed .escalated

namespace Execution

variable (x : Execution)

/-- The claim of an execution. -/
theorem turns_claimStmts : Turns x.claimStmts x.recoveryCase x.claimed := by
  -- the two audit events come first
  have h : Turns (transitionStmts x.recoveryCase x.recoveryCase .executing x.correlationId none []
      x.t₃) x.recoveryCase x.claimed := .transitionStmts (.refl _) (by simp)
  exact h.of_prefix (by simp [auditStmt, Stmt.table])

/-- A claim that is withdrawn in the same transaction. -/
theorem turns_withholdStmts (reason : String) (now : Time) :
    Turns (x.withholdStmts reason now) x.recoveryCase x.withheld := by
  have h : Turns (transitionStmts x.claimed x.claimed .escalated x.correlationId (some reason) []
      now) x.claimed x.withheld := .transitionStmts (.refl _) (by simp)
  -- the claim is withdrawn in the same transaction
  exact x.turns_claimStmts.append h rfl

end Execution

/-- The record of a link counts the attempt. -/
theorem turns_recordStmts (c : RecoveryCase) (attempt : RecoveryAttempt)
    (link : PaymentLinkSnapshot) (id : Uuid) (completedAt : Time) (correlationId : String)
    (now : Time) :
    Turns (recordStmts c attempt link id completedAt correlationId now) c c.recorded := by
  have h : Turns [.updateCase c c.counted] c c.recorded := .updateCase ⟨rfl, rfl, rfl, rfl⟩
  -- the attempt and the link are other tables
  have hattempt : ∀ st ∈ attempt.pendingUpdate (attempt.succeed link completedAt),
      st.table ≠ .recoveryCases := fun st hst => by
    rw [RecoveryAttempt.table_of_mem_pendingUpdate hst]
    simp
  exact ((h.of_suffix rfl hattempt).of_suffix rfl (by simp [Stmt.table])).of_suffix rfl
    (by simp [auditStmt, Stmt.table])

/-- The case after an execution has given up. -/
def RecoveryCase.givenUp (c : RecoveryCase) : RecoveryCase := c.moved c .escalated

/-- Giving up escalates the case. -/
theorem turns_giveUpStmts (c : RecoveryCase) (attempt : RecoveryAttempt)
    (category : ProviderFailureCategory) (message reason correlationId : String)
    (completedAt now : Time) :
    Turns (giveUpStmts c attempt category message reason correlationId completedAt now) c
      c.givenUp := by
  -- the attempt is closed before the case is
  have h : Turns (transitionStmts c c .escalated correlationId (some reason) [] now) c c.givenUp :=
    .transitionStmts (.refl _) (by simp)
  refine h.of_prefix fun st hst => ?_
  rw [RecoveryAttempt.table_of_mem_pendingUpdate hst]
  simp

namespace Delivery

variable (d : Delivery)

/-- The case as a delivery recovers it, and as it fails it. -/
def recovered : RecoveryCase := d.loaded.recoveryCase.moved d.credited .recovered

def failed : RecoveryCase := d.loaded.recoveryCase.moved d.loaded.recoveryCase .failed

/-- The tables an observation writes. -/
theorem table_observeStmts {now : Time} {st : Stmt} (hst : st ∈ d.observeStmts now) :
    st.table = .processedWebhookEvents ∨ st.table = .recoveryPaymentRequests ∨
      st.table = .auditEvents := by
  rw [observeStmts, List.mem_cons, List.mem_append, List.mem_singleton] at hst
  -- claim, link, audit event
  rcases hst with rfl | hst | rfl
  · exact .inl rfl
  · exact .inr (.inl (RecoveryPaymentRequest.table_of_mem_pendingUpdate hst))
  · exact .inr (.inr rfl)

/-- An observation leaves the cases alone. -/
theorem observeStmts_ne {now : Time} : ∀ st ∈ d.observeStmts now, st.table ≠ .recoveryCases := by
  intro st hst he
  have ht := d.table_observeStmts hst
  simp [he] at ht

/-- A payment in full. -/
theorem turns_recoverStmts (now now' : Time) :
    Turns (d.recoverStmts now now') d.loaded.recoveryCase d.recovered := by
  -- the observation comes first, then the case with what was paid
  have h : Turns (transitionStmts d.loaded.recoveryCase d.credited .recovered d.correlationId
      (some "webhook_confirmed") [] now') d.loaded.recoveryCase d.recovered :=
    .transitionStmts ⟨rfl, rfl, rfl, rfl⟩ (by simp)
  exact h.of_prefix d.observeStmts_ne

/-- What a failure writes besides the case is its attempt. -/
theorem table_failureStmts {attempt : Option RecoveryAttempt} {st : Stmt}
    (hst : st ∈ d.failureStmts attempt) : st.table = .recoveryAttempts := by
  cases attempt with
  | none => cases hst
  | some attempt => exact RecoveryAttempt.table_of_mem_pendingUpdate hst

/-- A link that will not be paid. -/
theorem turns_failStmts (attempt : Option RecoveryAttempt) (now now' : Time) :
    Turns (d.failStmts attempt now now') d.loaded.recoveryCase d.failed := by
  have h : Turns (transitionStmts d.loaded.recoveryCase d.loaded.recoveryCase .failed
      d.correlationId (some "webhook_confirmed") (d.failureStmts attempt) now')
      d.loaded.recoveryCase d.failed :=
    -- the attempt that fails is written along with the case
    .transitionStmts (.refl _) fun st hst => by rw [d.table_failureStmts hst]; simp
  exact h.of_prefix d.observeStmts_ne

end Delivery

/-! ### The moves of a case -/

/-- **The moves of a case**, with the statements that make them and what the operation
knew. -/
inductive CaseStep (h : List Event) (db : Db) : List Stmt → RecoveryCase → RecoveryCase → Prop where
  | turnedAway (d : Diagnosis) (known : d.Known db) (status : d.before.status = .discovered)
      (ineligible : d.eligible = false) : CaseStep h db d.turnAwayStmts d.before d.turnedAway
  | diagnosed (d : Diagnosis) (known : d.Known db)
      (status : d.before.status ∈ diagnosableStatuses)
      (admitted : d.before.status = .discovered → d.eligible = true) :
      CaseStep h db d.stmts d.before d.after
  | claimed (x : Execution) (idle : phase h = .idle) (known : x.Known db) (cleared : x.Cleared)
      (reads : x.reads <+: h) :
      CaseStep h db x.claimStmts x.recoveryCase x.claimed
  | withheld (x : Execution) (reason : String) (t : Time) (known : x.Known db)
      (withheld : ¬ x.Cleared) :
      CaseStep h db (x.withholdStmts reason t) x.recoveryCase x.withheld
  | recorded (c : RecoveryCase) (attempt : RecoveryAttempt) (made : Option PaymentLinkSnapshot)
      (link : PaymentLinkSnapshot) (id : Uuid) (completedAt : Time) (correlationId : String)
      (t : Time)
      (inHand : phase h = .called c attempt made (.ok link) ∨
        phase h = .reconciled c attempt made (.ok (some link))) :
      CaseStep h db (recordStmts c attempt link id completedAt correlationId t) c c.recorded
  | gaveUp (c : RecoveryCase) (attempt : RecoveryAttempt) (made : Option PaymentLinkSnapshot)
      (category : ProviderFailureCategory) (message reason correlationId : String)
      (completedAt t : Time)
      (inHand : (∃ e, phase h = .called c attempt made (.error (.paymentProvider e)) ∧
          e.kind ≠ .ambiguous) ∨
        (∃ found, phase h = .reconciled c attempt made found ∧ ∀ link, found ≠ .ok (some link))) :
      CaseStep h db (giveUpStmts c attempt category message reason correlationId completedAt t) c
        c.givenUp
  | recovered (d : Delivery) (t t' : Time) (known : d.Known h db)
      (executing : d.loaded.recoveryCase.status = .executing) (paid : d.FullyPaid) :
      CaseStep h db (d.recoverStmts t t') d.loaded.recoveryCase d.recovered
  | failed (d : Delivery) (attempt : Option RecoveryAttempt) (t t' : Time) (known : d.Known h db)
      (executing : d.loaded.recoveryCase.status = .executing) (unpaid : ¬ d.FullyPaid) :
      CaseStep h db (d.failStmts attempt t t') d.loaded.recoveryCase d.failed

/-- The change of a status that a statement records: the case, and the two statuses. -/
def Stmt.change? : Stmt → Option (Uuid × RecoveryCaseStatus × RecoveryCaseStatus)
  | .insertAuditEvent row =>
    match row.entity, row.body with
    | .recoveryCase id, .recoveryCaseStatusChanged source target _ => some (id, source, target)
    | _, _ => none
  | _ => none

/-- A statement over another table records no change. -/
theorem Stmt.change?_of_table {st : Stmt} (h : st.table ≠ .auditEvents) : st.change? = none := by
  cases st <;> first | rfl | exact absurd rfl h

/-- The statements record no change of a status. -/
def Quiet (sts : List Stmt) : Prop := ∀ st ∈ sts, st.change? = none

/-- What a transaction does to the cases. -/
inductive CaseEffect (h : List Event) (db : Db) (sts : List Stmt) : Prop where
  /-- Nothing. -/
  | same (quiet : Quiet sts) (cases : (Store.applyAll sts db).recoveryCases = db.recoveryCases)
  /-- It opens cases for failed payments. -/
  | opened (rows : List RecoveryCase) (quiet : Quiet sts)
      (cases : (Store.applyAll sts db).recoveryCases = db.recoveryCases ++ rows)
      (fresh : ∀ r ∈ rows, ∃ payment id createdAt, r = openedCase id payment createdAt ∧
        payment.status = .failed ∧ (Store.applyAll sts db).PaymentSeen payment)
  /-- It moves one case. -/
  | moved (c c' : RecoveryCase) (step : CaseStep h db sts c c')
      (row : db.recoveryCases.get? c.id = some c)
      (cases : ∀ id, (Store.applyAll sts db).recoveryCases.get? id =
        if c.id = id then some c' else db.recoveryCases.get? id)

/-- A move of a case, from what its statements do. -/
theorem CaseEffect.of_turns {h : List Event} {db : Db} {sts : List Stmt} {c c' : RecoveryCase}
    (step : CaseStep h db sts c c') (turns : Turns sts c c')
    (row : db.recoveryCases.get? c.id = some c) : CaseEffect h db sts :=
  .moved c c' step row (turns db row)

/-- A diagnosis that commits found its case as it had read it. -/
theorem Diagnosis.row_of_stmts {d : Diagnosis} {db : Db} (hd : db.CaseSeen d.before)
    (hc : Store.checkAll d.stmts db = none) :
    db.recoveryCases.get? d.before.id = some d.before := by
  have hrequest : ∀ st ∈ [d.requestStmt], st.table ≠ .recoveryCases := by
    simp [requestStmt, auditStmt, Stmt.table]
  -- from DISCOVERED the first update is the one at the door
  by_cases hdisc : d.before.status = .discovered
  · have hstmts : d.stmts = [d.requestStmt] ++ (transitionStmts d.before
        { d.before with eligible := true } .eligible d.correlationId none [] d.t₁ ++
          (d.recommendationStmts ++ d.reviewStmts)) := by
      simp [stmts, admissionStmts, hdisc]
    rw [hstmts] at hc
    exact hd.of_checkAll hrequest hc
  · -- from any other status it is the one to DIAGNOSING
    have hadm : d.admitted = d.before := if_neg hdisc
    have hstmts : d.stmts = [d.requestStmt] ++ (transitionStmts d.before d.before .diagnosing
        d.correlationId none [] d.t₂ ++ (d.aiStmts ++
          transitionStmts d.diagnosing (d.diagnosing.withRecommendation d.outcome.recommendation)
            .recommended d.correlationId none [] d.t₅ ++
          transitionStmts d.recommended d.recommended .policyReview d.correlationId none [] d.t₆ ++
          d.reviewStmts)) := by
      simp [stmts, admissionStmts, hdisc, recommendationStmts, hadm]
    rw [hstmts] at hc
    exact hd.of_checkAll hrequest hc

/-- The rows a sweep inserts. -/
theorem recoveryCases_of_openings (openings : List Opening) (correlationId : String) (db : Db) :
    (Store.applyAll (openings.map fun o => Opening.stmts o correlationId).flatten
      db).recoveryCases =
      db.recoveryCases ++ openings.map fun o => openedCase o.1 o.2.1 o.2.2.1 := by
  induction openings generalizing db with
  -- the rows of the first opening stand before the rest
  | nil => exact (List.append_nil _).symm
  | cons o openings ih =>
    rw [List.map_cons, List.flatten_cons, Store.applyAll_append, ih, List.map_cons]
    change (db.recoveryCases ++ [_]) ++ _ = _
    rw [List.append_assoc, List.singleton_append]

/-- The statements of a payment leave the cases alone. -/
theorem table_paymentStmts {newCustomer : Bool} {customer : Customer} {payment : Payment}
    {correlationId : String} {now : Time} {st : Stmt}
    (hst : st ∈ paymentStmts newCustomer customer payment correlationId now) :
    st.table = .customers ∨ st.table = .payments ∨ st.table = .auditEvents := by
  -- a new customer is one statement more
  cases newCustomer <;>
    simp only [paymentStmts, if_true, if_false, Bool.false_eq_true, List.nil_append,
      List.cons_append, List.mem_cons, List.not_mem_nil, or_false] at hst
  · rcases hst with rfl | rfl | rfl <;> simp [auditStmt, Stmt.table]
  · rcases hst with rfl | rfl | rfl | rfl <;> simp [auditStmt, Stmt.table]

/-- The statements of a payment leave the cases alone. -/
theorem frame_paymentStmts {newCustomer : Bool} {customer : Customer} {payment : Payment}
    {correlationId : String} {now : Time} (db : Db) :
    (Store.applyAll (paymentStmts newCustomer customer payment correlationId now)
      db).recoveryCases = db.recoveryCases :=
  Stmt.frame_recoveryCases fun st hst he => by
    have ht := table_paymentStmts hst
    simp [he] at ht

/-- The payment just inserted is there. -/
theorem paymentSeen_of_paymentStmts {newCustomer : Bool} {customer : Customer} {payment : Payment}
    {correlationId : String} {now : Time} {db : Db}
    (hc : Store.checkAll (paymentStmts newCustomer customer payment correlationId now) db = none) :
    (Store.applyAll (paymentStmts newCustomer customer payment correlationId now)
      db).PaymentSeen payment := by
  -- the payment is inserted behind its customer
  have hsplit : paymentStmts newCustomer customer payment correlationId now =
      ((if newCustomer then [.insertCustomer customer] else []) ++
        [.updateCustomer customer (customer.countPayment payment.status)]) ++
      [.insertPayment payment, auditStmt (.payment payment.id)
        (.paymentIngested payment.status payment.amount payment.currency payment.failureReason)
        .system correlationId now] := by
    rw [paymentStmts, List.append_assoc]
    rfl
  rw [hsplit, Store.checkAll_append, Option.or_eq_none_iff] at hc
  rw [hsplit, Store.applyAll_append]
  generalize Store.applyAll ((if newCustomer then [Stmt.insertCustomer customer] else []) ++
    [.updateCustomer customer (customer.countPayment payment.status)]) db = db' at hc
  -- the check of the insert says that the id was free
  have hfree := Stmt.eq_false_of_unlessTaken (Store.checkAll_cons_eq_none.mp hc.2).1
  rw [Option.isSome_eq_false_iff, Option.isNone_iff_eq_none] at hfree
  change Table.get? (db'.payments ++ [payment]) payment.id = some payment
  rw [Table.get?_append, hfree, Option.none_or, Table.get?_singleton]
  exact if_pos rfl

/-- What opens cases records no change of a status. -/
theorem quiet_openings (openings : List Opening) (correlationId : String) :
    Quiet (openings.map fun o => Opening.stmts o correlationId).flatten :=
  forall_mem_openings (fun _ => rfl) (fun _ _ _ _ => rfl) openings

/-- Nor does what ingests a payment. -/
theorem quiet_paymentStmts (newCustomer : Bool) (customer : Customer) (payment : Payment)
    (correlationId : String) (now : Time) :
    Quiet (paymentStmts newCustomer customer payment correlationId now) := by
  intro st hst
  cases newCustomer <;>
    simp only [paymentStmts, if_true, if_false, Bool.false_eq_true, List.nil_append,
      List.cons_append, List.mem_cons, List.not_mem_nil, or_false] at hst
  · rcases hst with rfl | rfl | rfl <;> rfl
  · rcases hst with rfl | rfl | rfl | rfl <;> rfl

/-- Nor an observation. -/
theorem Delivery.quiet_observeStmts (d : Delivery) (now : Time) : Quiet (d.observeStmts now) := by
  intro st hst
  rw [observeStmts, List.mem_cons, List.mem_append, List.mem_singleton] at hst
  -- the claim, the link, the event of the link
  rcases hst with rfl | hst | rfl
  · rfl
  · refine Stmt.change?_of_table ?_
    rw [RecoveryPaymentRequest.table_of_mem_pendingUpdate hst]
    simp
  · rw [paymentEventBody]
    split <;> rfl

/-- **What any transaction does to the cases.** -/
theorem Txn.caseEffect {h : List Event} {db : Db} {sts : List Stmt} (htxn : Txn h db sts)
    (hc : Store.checkAll sts db = none) : CaseEffect h db sts := by
  cases htxn with
  | ingested i op idle known =>
    exact .same (quiet_paymentStmts _ _ _ _ _) (frame_paymentStmts db)
  | ingestedWithCase i id createdAt t' op idle known failed =>
    -- one case is opened, for the payment of the same transaction
    refine .opened [openedCase id i.payment createdAt] (fun st hst => ?_) ?_ fun r hr => ?_
    · rcases List.mem_append.mp hst with hst | hst
      · exact quiet_paymentStmts _ _ _ _ _ st hst
      · exact forall_mem_openingStmts (C := fun st => st.change? = none) (fun _ => rfl)
          (fun _ _ _ _ => rfl) _ _ _ _ st hst
    · rw [Store.applyAll_append]
      change _ ++ [_] = _
      rw [Ingestion.stmts, frame_paymentStmts]
    · rw [List.mem_singleton.mp hr]
      refine ⟨i.payment, id, createdAt, rfl, failed, ?_⟩
      -- the payment has just been inserted, so it is seen
      rw [Store.checkAll_append, Option.or_eq_none_iff] at hc
      rw [Store.applyAll_append]
      exact (paymentSeen_of_paymentStmts hc.1).evolves (.applyAll hc.2)
  | deduplicated payment key correlationId t op idle read =>
    exact .same (by simp [Quiet, auditStmt, Stmt.change?]) rfl
  | opened openings correlationId op idle failed =>
    refine .opened _ (quiet_openings openings correlationId)
      (recoveryCases_of_openings openings correlationId db) fun r hr => ?_
    -- each row is that of an opening, whose payment had been seen to have failed
    obtain ⟨o, ho, rfl⟩ := List.mem_map.mp hr
    obtain ⟨hseen, hfailed⟩ := failed o ho
    exact ⟨o.2.1, o.1, o.2.2.1, rfl, hfailed, hseen.evolves (.applyAll hc)⟩
  | turnedAway d op idle known status ineligible reads =>
    -- the event of the request comes before the update
    have hrequest : ∀ st ∈ [d.requestStmt], st.table ≠ .recoveryCases := by
      simp [Diagnosis.requestStmt, auditStmt, Stmt.table]
    exact .of_turns (.turnedAway d known status ineligible) d.turns_turnAwayStmts
      (known.caseSeen.of_checkAll hrequest hc)
  | diagnosed d op idle known status admitted reads =>
    exact .of_turns (.diagnosed d known status admitted) d.turns_stmts
      (Diagnosis.row_of_stmts known.caseSeen hc)
  | claimed x op idle known cleared reads =>
    refine .of_turns (.claimed x idle known cleared reads) x.turns_claimStmts
      (known.caseSeen.of_checkAll ?_ hc)
    simp [auditStmt, Stmt.table]
  | withheld x reason t op idle known withheld =>
    refine .of_turns (.withheld x reason t known withheld) (x.turns_withholdStmts reason t)
      -- the claim is checked first
      (known.caseSeen.of_checkAll ?_ (Option.or_eq_none_iff.mp
        ((Store.checkAll_append x.claimStmts _ _).symm.trans hc)).1)
    simp [auditStmt, Stmt.table]
  | attempted recoveryCase payment correlationId reference id startedAt createdAt t op claimed
      paymentSeen paymentId =>
    exact .same (by simp [Quiet, attemptStmts, auditStmt, Stmt.change?]) rfl
  | recorded c attempt made link id completedAt correlationId t op inHand caseSeen attemptSeen =>
    have hnil : ∀ st ∈ ([] : List Stmt), st.table ≠ .recoveryCases := by simp
    exact .of_turns (.recorded c attempt made link id completedAt correlationId t inHand)
      (turns_recordStmts c attempt link id completedAt correlationId t)
      (caseSeen.of_checkAll hnil hc)
  | reconciled c attempt made found error link searchError correlationId t t' op searched =>
    exact .same (by simp [Quiet, reconcileStmts, auditStmt, Stmt.change?]) rfl
  | gaveUp c attempt made category message reason correlationId completedAt t op inHand caseSeen
      attemptSeen =>
    refine .of_turns (.gaveUp c attempt made category message reason correlationId completedAt t
      inHand) (turns_giveUpStmts c attempt category message reason correlationId completedAt t)
      (caseSeen.of_checkAll (fun st hst => ?_) hc)
    rw [RecoveryAttempt.table_of_mem_pendingUpdate hst]
    simp
  | ignored event correlationId idle started irrelevant =>
    exact .same (by simp [Quiet, Delivery.claimStmt, Stmt.change?]) rfl
  | unmatched event correlationId paymentLinkId t idle started linkId read =>
    exact .same (by simp [Quiet, Delivery.claimStmt, auditStmt, Stmt.change?]) rfl
  | detached event correlationId caseId idle started read =>
    exact .same (by simp [Quiet, Delivery.claimStmt, Stmt.change?]) rfl
  | observed d t idle known movedOn =>
    exact .same (d.quiet_observeStmts t) (Stmt.frame_recoveryCases d.observeStmts_ne)
  | recovered d t t' idle known executing paid =>
    exact .of_turns (.recovered d t t' known executing paid) (d.turns_recoverStmts t t')
      (known.caseSeen.of_checkAll d.observeStmts_ne hc)
  | failed d attempt t t' idle known executing unpaid read =>
    exact .of_turns (.failed d attempt t t' known executing unpaid)
      (d.turns_failStmts attempt t t') (known.caseSeen.of_checkAll d.observeStmts_ne hc)
  | cycled cycleId body correlationId t op idle report =>
    exact .same (by simp [Quiet, auditStmt, Stmt.change?]) rfl

end RecoverAI
