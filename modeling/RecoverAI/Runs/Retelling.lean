import RecoverAI.Runs.Evidence

/-!
# Cases retold

The audit trail tells more of a case than its status. But for the id and the time of its
creation, the whole row can be rebuilt from its story, event by event (`retell`). A row and
the events about it are written in one transaction, so the two agree in every committed
state, whatever the interleaving (`trail_retells_cases`).
-/

namespace RecoverAI

open Interleave

/-! ### Telling a case -/

/-- A case as far as it has been told, and what the last payment event said was paid. -/
structure Told where
  recoveryCase : RecoveryCase
  lastPaid : Int
  deriving DecidableEq, Repr

/-- The case after a change of its status: the door decides on its eligibility, and a recovery
credits what was paid. -/
def Told.changed (told : Told) (target : RecoveryCaseStatus) : RecoveryCase :=
  let c := told.recoveryCase
  match target with
  | .eligible => c.moved { c with eligible := true } target
  | .ineligible => c.moved { c with eligible := false } target
  | .recovered => c.moved { c with recoveredAmount := c.recoveredAmount + told.lastPaid } target
  | _ => c.moved c target

/-- What is told after one more event. -/
def Told.next (told : Told) : AuditBody → Told
  | .aiDiagnosisCreated _ diagnosisCategory _ _ _ _ _ =>
    { told with recoveryCase :=
      { told.recoveryCase with diagnosisCategory := some diagnosisCategory } }
  | .recoveryRecommendationCreated recommendedAction recoveryConfidence decisionExplanation =>
    { told with recoveryCase :=
      { told.recoveryCase with
        recommendedAction := some recommendedAction
        recoveryConfidence := some recoveryConfidence
        diagnosisNotes := some decisionExplanation } }
  | .policyEvaluated _ _ policyVersion _ =>
    { told with recoveryCase :=
      told.recoveryCase.flushed { told.recoveryCase with policyVersion := some policyVersion } }
  | .recoveryCaseStatusChanged _ toStatus _ => { told with recoveryCase := told.changed toStatus }
  | .paymentLinkCreated _ _ _ _ _ => { told with recoveryCase := told.recoveryCase.recorded }
  | .paymentConfirmed _ _ amountPaid _ => { told with lastPaid := amountPaid }
  | _ => told

/-- A case is told from its creation on. -/
def hear (id : Uuid) (createdAt : Time) : Option Told → AuditBody → Option Told
  | some told, body => some (told.next body)
  | none, .recoveryCaseCreated paymentId revenueAtRisk _ =>
    some {
      recoveryCase := {
        id := id
        paymentId := paymentId
        status := .discovered
        version := 1
        revenueAtRisk := revenueAtRisk
        recoveredAmount := 0
        eligible := false
        diagnosisCategory := none
        diagnosisNotes := none
        recoveryConfidence := none
        recommendedAction := none
        currentAttemptNumber := 0
        customerContactCount := 0
        policyVersion := none
        createdAt := createdAt }
      lastPaid := 0 }
  | none, _ => none

/-- The case a story tells of. -/
def retell (id : Uuid) (createdAt : Time) (story : List AuditBody) : Option RecoveryCase :=
  (story.foldl (hear id createdAt) none).map Told.recoveryCase

section Tell

variable {id : Uuid} {createdAt : Time} {bodies bodies' : List AuditBody}
  {c c' c'' : RecoveryCase}

/-- A story that has begun goes on from event to event. -/
theorem foldl_hear_some (told : Told) (bodies : List AuditBody) :
    bodies.foldl (hear id createdAt) (some told) = some (bodies.foldl Told.next told) := by
  induction bodies generalizing told with
  | nil => rfl
  | cons body bodies ih => exact ih (told.next body)

/-- What is said turns one row into the other. -/
def Tells (bodies : List AuditBody) (c c' : RecoveryCase) : Prop :=
  ∀ told : Told, told.recoveryCase = c → (bodies.foldl Told.next told).recoveryCase = c'

/-- What is told in two parts is told. -/
theorem Tells.append (h : Tells bodies c c') (h' : Tells bodies' c' c'') :
    Tells (bodies ++ bodies') c c'' := by
  intro told htold
  -- The story is told in two parts, the second from where the first one has led.
  rw [List.foldl_append]
  exact h' _ (h told htold)

/-- A story goes on. -/
theorem Tells.retell (h : Tells bodies c c') {story : List AuditBody}
    (hstory : retell id createdAt story = some c) :
    RecoverAI.retell id createdAt (story ++ bodies) = some c' := by
  obtain ⟨told, htold, hc⟩ := Option.map_eq_some_iff.mp hstory
  rw [RecoverAI.retell, List.foldl_append, htold, foldl_hear_some, Option.map_some, h told hc]

end Tell

/-! ### What the transactions tell -/

namespace Diagnosis

variable (d : Diagnosis)

/-- The admission. -/
theorem tells_admissionBodies : Tells d.admissionBodies d.before d.admitted := by
  -- An old case is admitted already, and nothing is said.
  rintro ⟨c, lastPaid⟩ rfl
  unfold admissionBodies admitted
  split
  · rfl
  · rfl

/-- The recommendation. -/
theorem tells_recommendationBodies : Tells d.recommendationBodies d.admitted d.inReview := by
  rintro ⟨c, lastPaid⟩ h
  obtain rfl : c = d.admitted := h
  rfl

/-- The review. -/
theorem tells_reviewBodies : Tells d.reviewBodies d.inReview d.after := by
  rintro ⟨c, lastPaid⟩ h
  obtain rfl : c = d.inReview := h
  have hafter : d.after = d.reviewed.moved d.reviewed d.next.1 := rfl
  rw [hafter]
  change Told.changed ⟨d.reviewed, lastPaid⟩ d.next.1 = _
  -- Whichever of the three statuses it is, the change is a plain one.
  rcases d.next_mem with h | h | h <;> rw [h] <;> rfl

end Diagnosis

/-- What a delivery says of a payment leaves the case as it is. -/
theorem Delivery.tells_event (d : Delivery) {c : RecoveryCase} :
    Tells [paymentEventBody d.observed d.event.paymentId] c c := by
  intro told htold
  unfold paymentEventBody
  split <;> exact htold

/-- **A move is told as it is made**, and nothing is told of other cases. -/
theorem CaseStep.tells {h : List Event} {db : Db} {sts : List Stmt} {c c' : RecoveryCase}
    (hs : CaseStep h db sts c c') : Tells (bodiesOf c.id sts) c c' ∧ c'.createdAt = c.createdAt ∧
      ∀ id, id ≠ c.id → bodiesOf id sts = [] := by
  have hnil : ∀ st ∈ ([] : List Stmt), st.table ≠ .auditEvents := by simp
  -- Each move, with what its events say of the case, and then that they say nothing of others.
  cases hs with
  | turnedAway d known status =>
    obtain ⟨reason, hbodies⟩ : ∃ reason, bodiesOf d.before.id d.turnAwayStmts = _ :=
      d.bodiesOf_turnAwayStmts
    refine ⟨?_, rfl, fun id hid => ?_⟩
    · rw [hbodies, if_pos rfl]
      rintro ⟨c, lastPaid⟩ rfl
      rfl
    · obtain ⟨reason, hbodies⟩ : ∃ reason, bodiesOf id d.turnAwayStmts = _ :=
        d.bodiesOf_turnAwayStmts
      rw [hbodies, if_neg (Ne.symm hid)]
  | diagnosed d known status =>
    refine ⟨?_, d.after_createdAt, fun id hid => ?_⟩
    · rw [d.bodiesOf_stmts, if_pos rfl]
      -- The request changes nothing; then come the admission, the recommendation and the review.
      have hrequest : Tells [.diagnosisRequested d.before.status] d.before d.before := fun _ h => h
      exact (hrequest.append (d.tells_admissionBodies.append d.tells_recommendationBodies)).append
        d.tells_reviewBodies
    · rw [d.bodiesOf_stmts, if_neg (Ne.symm hid)]
  | claimed x idle known =>
    refine ⟨?_, rfl, fun id hid => ?_⟩
    · rw [x.bodiesOf_claimStmts, if_pos rfl]
      rintro ⟨c, lastPaid⟩ rfl
      rfl
    · rw [x.bodiesOf_claimStmts, if_neg (Ne.symm hid)]
  | withheld x reason t known =>
    have hid : x.claimed.id = x.recoveryCase.id := rfl
    refine ⟨?_, rfl, fun id hne => ?_⟩
    · -- claimed, and escalated at once
      rw [Execution.withholdStmts, bodiesOf_append, x.bodiesOf_claimStmts, if_pos rfl,
        bodiesOf_transitionStmts hnil, if_pos hid]
      rintro ⟨c, lastPaid⟩ rfl
      rfl
    · rw [Execution.withholdStmts, bodiesOf_append, x.bodiesOf_claimStmts,
        if_neg (Ne.symm hne), bodiesOf_transitionStmts hnil, hid, if_neg (Ne.symm hne)]
      rfl
  | recorded c attempt made link id completedAt correlationId t inHand =>
    refine ⟨?_, rfl, fun id hid => ?_⟩
    · rw [bodiesOf_recordStmts, if_pos rfl]
      rintro ⟨c, lastPaid⟩ rfl
      rfl
    · rw [bodiesOf_recordStmts, if_neg (Ne.symm hid)]
  | gaveUp c attempt made category message reason correlationId completedAt t inHand =>
    -- What is written to the attempt is no event.
    have hattempt : ∀ st ∈ attempt.pendingUpdate (attempt.fail category message completedAt),
        st.table ≠ .auditEvents := fun st hst => by
      rw [RecoveryAttempt.table_of_mem_pendingUpdate hst]
      simp
    refine ⟨?_, rfl, fun id hid => ?_⟩
    · rw [giveUpStmts, bodiesOf_append, bodiesOf_of_table hattempt, bodiesOf_transitionStmts hnil,
        if_pos rfl]
      rintro ⟨c, lastPaid⟩ rfl
      rfl
    · rw [giveUpStmts, bodiesOf_append, bodiesOf_of_table hattempt, bodiesOf_transitionStmts hnil,
        if_neg (Ne.symm hid)]
      rfl
  | recovered d t t' known executing paid =>
    have hid : d.credited.id = d.loaded.recoveryCase.id := rfl
    refine ⟨?_, rfl, fun id hne => ?_⟩
    · -- a link that is paid is told as a confirmed payment, which the recovery then credits
      rw [Delivery.recoverStmts, bodiesOf_append, d.bodiesOf_observeStmts, if_pos rfl,
        bodiesOf_transitionStmts hnil, if_pos hid, paymentEventBody, if_pos paid.1]
      rintro ⟨c, lastPaid⟩ rfl
      rfl
    · rw [Delivery.recoverStmts, bodiesOf_append, d.bodiesOf_observeStmts, if_neg (Ne.symm hne),
        bodiesOf_transitionStmts hnil, hid, if_neg (Ne.symm hne)]
      rfl
  | failed d attempt t t' known executing =>
    have hattempt : ∀ st ∈ d.failureStmts attempt, st.table ≠ .auditEvents := fun st hst => by
      rw [d.table_failureStmts hst]
      simp
    refine ⟨?_, rfl, fun id hid => ?_⟩
    · rw [Delivery.failStmts, bodiesOf_append, d.bodiesOf_observeStmts, if_pos rfl,
        bodiesOf_transitionStmts hattempt, if_pos rfl]
      -- The event of the payment changes nothing, and the transition fails the case.
      have hevent : Tells [paymentEventBody d.observed d.event.paymentId] d.loaded.recoveryCase
          d.loaded.recoveryCase := d.tells_event
      refine hevent.append ?_
      rintro ⟨c, lastPaid⟩ rfl
      rfl
    · rw [Delivery.failStmts, bodiesOf_append, d.bodiesOf_observeStmts, if_neg (Ne.symm hid),
        bodiesOf_transitionStmts hattempt, if_neg (Ne.symm hid)]
      rfl

/-! ### The stories of all cases -/

/-- Each case is as its story tells it, and there is no story without a case. -/
structure Db.Retold (db : Db) : Prop where
  row : ∀ id c, db.recoveryCases.get? id = some c → retell id c.createdAt (db.story id) = some c
  unknown : ∀ id, db.recoveryCases.get? id = none → db.story id = []

namespace Db.Retold

variable {db : Db} {sts : List Stmt} {c c' : RecoveryCase}

/-- At the beginning there is nothing to tell. -/
theorem empty : Db.empty.Retold where
  row := fun _ _ h => by cases h
  unknown := fun _ _ => rfl

/-- Statements that say nothing of any case. -/
theorem silent (h : db.Retold) (hcases : (Store.applyAll sts db).recoveryCases = db.recoveryCases)
    (hsaid : ∀ id, bodiesOf id sts = []) : (Store.applyAll sts db).Retold where
  row := fun id c hc => by
    rw [story_applyAll, hsaid, List.append_nil]
    exact h.row id c (hcases ▸ hc)
  unknown := fun id hnone => by
    rw [story_applyAll, hsaid, List.append_nil]
    exact h.unknown id (hcases ▸ hnone)

/-- Statements that speak of one case, and turn it as they say. -/
theorem told (h : db.Retold) (hrow : db.recoveryCases.get? c.id = some c)
    (hcases : ∀ id, (Store.applyAll sts db).recoveryCases.get? id =
      if c.id = id then some c' else db.recoveryCases.get? id)
    (htells : Tells (bodiesOf c.id sts) c c') (hcreated : c'.createdAt = c.createdAt)
    (hothers : ∀ id, id ≠ c.id → bodiesOf id sts = []) : (Store.applyAll sts db).Retold where
  -- The row is that of the story with its new part, or an untouched one with its old story.
  row := fun id r hr => by
    rw [story_applyAll]
    rw [hcases] at hr
    split_ifs at hr with hid
    · obtain rfl : c' = r := Option.some.inj hr
      rw [← hid, hcreated]
      exact htells.retell (h.row c.id c hrow)
    · rw [hothers id (Ne.symm hid), List.append_nil]
      exact h.row id r hr
  unknown := fun id hnone => by
    rw [hcases] at hnone
    split_ifs at hnone with hid
    rw [story_applyAll, hothers id (Ne.symm hid), List.append_nil]
    exact h.unknown id hnone

/-- The opening of a case begins its story. -/
theorem opening (h : db.Retold) {id : Uuid} {payment : Payment} {createdAt auditedAt : Time}
    {correlationId : String}
    (hc : Store.checkAll (openingStmts id payment createdAt correlationId auditedAt) db = none) :
    (Store.applyAll (openingStmts id payment createdAt correlationId auditedAt) db).Retold := by
  -- the check of the insert says that the id was free
  have hfree : db.recoveryCases.get? id = none := by
    have htaken := Stmt.eq_false_of_unlessTaken (Store.checkAll_cons_eq_none.mp hc).1
    rw [Bool.or_eq_false_iff, Option.isSome_eq_false_iff, Option.isNone_iff_eq_none] at htaken
    exact htaken.1
  -- One row more,
  have hcases : ∀ id', (Store.applyAll (openingStmts id payment createdAt correlationId auditedAt)
      db).recoveryCases.get? id' = (db.recoveryCases.get? id').or
        (if id = id' then some (openedCase id payment createdAt) else none) := fun id' => by
    change Table.get? (db.recoveryCases ++ [openedCase id payment createdAt]) id' = _
    rw [Table.get?_append, Table.get?_singleton]
    rfl
  -- and one event.
  have hsaid : ∀ id', bodiesOf id' (openingStmts id payment createdAt correlationId auditedAt) =
      if id = id' then [.recoveryCaseCreated payment.id payment.amount "ingestion"] else [] :=
    fun id' => bodiesOf_auditStmt
  constructor
  · intro id' c hrow
    rw [story_applyAll, hsaid]
    rw [hcases] at hrow
    by_cases hid : id = id'
    · -- The new case: its story was empty, and is its creation.
      subst hid
      rw [hfree, Option.none_or, if_pos rfl] at hrow
      obtain rfl : openedCase id payment createdAt = c := Option.some.inj hrow
      rw [h.unknown id hfree, if_pos rfl]
      rfl
    · -- an old one
      rw [if_neg hid, Option.or_none] at hrow
      rw [if_neg hid, List.append_nil]
      exact h.row id' c hrow
  · -- An id without a row is not the new one.
    intro id' hnone
    rw [hcases, Option.or_eq_none_iff] at hnone
    obtain ⟨hbefore, hnew⟩ := hnone
    have hid : id ≠ id' := fun hid => by
      rw [if_pos hid] at hnew
      cases hnew
    rw [story_applyAll, hsaid, if_neg hid, List.append_nil]
    exact h.unknown id' hbefore

/-- So do several openings. -/
theorem openings (h : db.Retold) (openings : List Opening) (correlationId : String)
    (hc : Store.checkAll (openings.map fun o => Opening.stmts o correlationId).flatten db = none) :
    (Store.applyAll (openings.map fun o => Opening.stmts o correlationId).flatten db).Retold := by
  induction openings generalizing db with
  | nil => exact h
  | cons o openings ih =>
    rw [List.map_cons, List.flatten_cons] at hc ⊢
    rw [Store.checkAll_append, Option.or_eq_none_iff] at hc
    rw [Store.applyAll_append]
    exact ih (h.opening hc.1) hc.2

/-- A move of a case, where its row is as the operation has read it. -/
theorem step {h : List Event} (hr : db.Retold) (hs : CaseStep h db sts c c') (ht : Turns sts c c')
    (hrow : db.recoveryCases.get? c.id = some c) : (Store.applyAll sts db).Retold :=
  let ⟨htells, hcreated, hothers⟩ := hs.tells
  hr.told hrow (ht db hrow) htells hcreated hothers

end Db.Retold

/-- **Every transaction tells what it does.** -/
theorem Txn.retold {h : List Event} {db : Db} {sts : List Stmt} (htxn : Txn h db sts)
    (hc : Store.checkAll sts db = none) (hr : db.Retold) : (Store.applyAll sts db).Retold := by
  -- What these statements say is not said of any case.
  have haudit : ∀ {entity : AuditEntity} {body : AuditBody} {correlationId : String} {t : Time},
      (∀ id, entity ≠ .recoveryCase id) →
      ∀ id, bodiesOf id [auditStmt entity body .system correlationId t] = [] :=
    fun hentity id => bodiesOf_auditStmt_ne (hentity id)
  have hclaim : ∀ (event : ParsedWebhookEvent) (id : Uuid),
      bodiesOf id [Delivery.claimStmt event] = [] := fun event id => rfl
  -- The statements of a payment speak of the payment only.
  have hpayment : ∀ (i : Ingestion) (id : Uuid), bodiesOf id i.stmts = [] := fun i id => by
    unfold Ingestion.stmts paymentStmts
    cases i.newCustomer <;> rfl
  -- Each transaction is silent, opens cases, or moves one.
  cases htxn with
  | ingested i op idle known => exact hr.silent (frame_paymentStmts db) (hpayment i)
  | ingestedWithCase i id createdAt t' op idle known failed =>
    rw [Store.checkAll_append, Option.or_eq_none_iff] at hc
    rw [Store.applyAll_append]
    exact (hr.silent (frame_paymentStmts db) (hpayment i)).opening hc.2
  | deduplicated payment key correlationId t op idle read =>
    exact hr.silent rfl (haudit (by simp))
  | opened openings correlationId op idle failed => exact hr.openings openings correlationId hc
  | turnedAway d op idle known status ineligible reads =>
    -- The row is as the diagnosis has read it, since the version check has passed.
    have hrequest : ∀ st ∈ [d.requestStmt], st.table ≠ .recoveryCases := by
      simp [Diagnosis.requestStmt, auditStmt, Stmt.table]
    exact hr.step (h := h) (.turnedAway d known status ineligible) d.turns_turnAwayStmts
      (known.caseSeen.of_checkAll hrequest hc)
  | diagnosed d op idle known status admitted reads =>
    exact hr.step (h := h) (.diagnosed d known status admitted) d.turns_stmts
      (Diagnosis.row_of_stmts known.caseSeen hc)
  | claimed x op idle known cleared reads =>
    refine hr.step (.claimed x idle known cleared reads) x.turns_claimStmts
      (known.caseSeen.of_checkAll ?_ hc)
    simp [auditStmt, Stmt.table]
  | withheld x reason t op idle known withheld =>
    refine hr.step (h := h) (.withheld x reason t known withheld) (x.turns_withholdStmts reason t)
      (known.caseSeen.of_checkAll ?_ (Option.or_eq_none_iff.mp
        ((Store.checkAll_append x.claimStmts _ _).symm.trans hc)).1)
    simp [auditStmt, Stmt.table]
  | attempted recoveryCase payment correlationId reference id startedAt createdAt t op claimed
      paymentSeen paymentId =>
    exact hr.silent rfl fun caseId => rfl
  | recorded c attempt made link id completedAt correlationId t op inHand caseSeen attemptSeen =>
    have hnil : ∀ st ∈ ([] : List Stmt), st.table ≠ .recoveryCases := by simp
    exact hr.step (.recorded c attempt made link id completedAt correlationId t inHand)
      (turns_recordStmts c attempt link id completedAt correlationId t)
      (caseSeen.of_checkAll hnil hc)
  | reconciled c attempt made found error link searchError correlationId t t' op searched =>
    exact hr.silent rfl fun caseId => rfl
  | gaveUp c attempt made category message reason correlationId completedAt t op inHand caseSeen
      attemptSeen =>
    refine hr.step (.gaveUp c attempt made category message reason correlationId completedAt t
      inHand) (turns_giveUpStmts c attempt category message reason correlationId completedAt t)
      (caseSeen.of_checkAll (fun st hst => ?_) hc)
    rw [RecoveryAttempt.table_of_mem_pendingUpdate hst]
    simp
  | ignored event correlationId idle started irrelevant => exact hr.silent rfl (hclaim event)
  | unmatched event correlationId paymentLinkId t idle started linkId read =>
    exact hr.silent rfl fun caseId => rfl
  | detached event correlationId caseId idle started read => exact hr.silent rfl (hclaim event)
  | observed d t idle known movedOn =>
    -- the case is spoken of, but stays as it is
    have hsame : (Store.applyAll (d.observeStmts t) db).recoveryCases = db.recoveryCases :=
      Stmt.frame_recoveryCases d.observeStmts_ne
    obtain ⟨c, hrow, hbecomes⟩ := known.caseSeen
    have hid : d.loaded.recoveryCase.id = c.id := hbecomes.id.symm
    have hrow : db.recoveryCases.get? c.id = some c := hid ▸ hrow
    have htells : Tells (bodiesOf c.id (d.observeStmts t)) c c := by
      rw [d.bodiesOf_observeStmts, if_pos hid]
      exact d.tells_event
    refine hr.told hrow (fun id => ?_) htells rfl fun id hne => ?_
    · rw [hsame]
      split_ifs with h
      · rw [← h, hrow]
      · rfl
    · rw [d.bodiesOf_observeStmts, hid, if_neg (Ne.symm hne)]
  | recovered d t t' idle known executing paid =>
    exact hr.step (.recovered d t t' known executing paid) (d.turns_recoverStmts t t')
      (known.caseSeen.of_checkAll d.observeStmts_ne hc)
  | failed d attempt t t' idle known executing unpaid read =>
    exact hr.step (.failed d attempt t t' known executing unpaid)
      (d.turns_failStmts attempt t t') (known.caseSeen.of_checkAll d.observeStmts_ne hc)
  | cycled cycleId body correlationId t op idle report =>
    exact hr.silent rfl (haudit (by simp))

/-- So every lawful record tells its cases. -/
theorem Lawful.retold {H : History} (h : Lawful H) : H.replay.Retold := by
  induction h with
  | refl => exact .empty
  | @cons H t e before permitted checked _ ih =>
    cases e with
    | committed sts =>
      rw [History.replay_cons, Event.applyTo_committed]
      exact Txn.retold permitted (checked _ rfl) ih
    | _ => exact ih

/-- **The audit trail retells the cases.** In every reachable state, whatever the interleaving, each
case is exactly as the events of its story lead from one row to the next: its status, its
recommendation, what was recovered, the number of its attempts and its version. There is no
story without a case. -/
theorem trail_retells_cases {w : World} (hw : Reachable w) :
    (∀ c ∈ w.shared.db.recoveryCases,
      retell c.id c.createdAt (w.shared.db.story c.id) = some c) ∧
    ∀ caseId, w.shared.db.recoveryCases.get? caseId = none → w.shared.db.story caseId = [] := by
  have hl := Reachable.lawful hw
  rw [Reachable.db_eq hw]
  exact ⟨fun c hc => hl.retold.row c.id c (hl.distinct.caseId.get?_of_mem hc), hl.retold.unknown⟩

set_option maxRecDepth 10000 in
/-- A case that was diagnosed, executed and recovered. -/
theorem trail_retells_cases_paid :
    (World.empty.after Sample.paid).shared.db.recoveryCases.any
        (fun c => c.status = .recovered ∧ c.recoveredAmount ≠ 0) ∧
      (∀ c ∈ (World.empty.after Sample.paid).shared.db.recoveryCases, retell c.id c.createdAt
        ((World.empty.after Sample.paid).shared.db.story c.id) = some c) ∧
      ∀ caseId, (World.empty.after Sample.paid).shared.db.recoveryCases.get? caseId = none →
        (World.empty.after Sample.paid).shared.db.story caseId = [] :=
  ⟨by decide +kernel, trail_retells_cases (World.reachable_after Sample.paid)⟩

end RecoverAI
