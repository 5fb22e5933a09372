import RecoverAI.Models.References
import RecoverAI.Runs.Intake
import RecoverAI.Runs.Attempts

/-!
# Referential integrity

The model of the database checks no foreign key. It need not: in every run each statement
that is committed refers to rows that are there when it is applied (`Lawful.refersAll`), so
no foreign key of the schema ever refuses one, and no row of a committed state names a row
that is missing (`references_hold`). A new payment is the only row whose parent may come with
it; what any other row names was committed before.
-/

namespace RecoverAI

open Interleave

variable {H : History} {t : Tid} {sts sts' : List Stmt}

/-! ### Statements that insert nothing of the kind -/

/-- No statement inserts a row that names another. -/
def AllPlain (sts : List Stmt) : Prop := ∀ st ∈ sts, st.Plain

namespace AllPlain

theorem nil : AllPlain [] := fun _ hst => absurd hst List.not_mem_nil

theorem append (h : AllPlain sts) (h' : AllPlain sts') : AllPlain (sts ++ sts') := fun st hst =>
  (List.mem_append.mp hst).elim (h st) (h' st)

theorem audit {entity : AuditEntity} {body : AuditBody} {actorType : ActorType}
    {correlationId : String} {now : Time} :
    AllPlain [auditStmt entity body actorType correlationId now] := by
  simp [AllPlain, auditStmt, Stmt.Plain]

theorem claim (event : ParsedWebhookEvent) : AllPlain [Delivery.claimStmt event] := by
  simp [AllPlain, Delivery.claimStmt, Stmt.Plain]

theorem updateCase (before after : RecoveryCase) : AllPlain [.updateCase before after] := by
  simp [AllPlain, Stmt.Plain]

theorem caseUpdate (before after : RecoveryCase) : AllPlain (before.pendingUpdate after) := by
  intro st hst
  rw [RecoveryCase.eq_of_mem_pendingUpdate hst]
  trivial

theorem attemptUpdate (before after : RecoveryAttempt) : AllPlain (before.pendingUpdate after) := by
  intro st hst
  rw [RecoveryAttempt.eq_of_mem_pendingUpdate hst]
  trivial

theorem linkUpdate (before after : RecoveryPaymentRequest) :
    AllPlain (before.pendingUpdate after) := by
  intro st hst
  rw [RecoveryPaymentRequest.eq_of_mem_pendingUpdate hst]
  trivial

theorem transition {before after : RecoveryCase} {target : RecoveryCaseStatus}
    {correlationId : String} {reason : Option String} {dirty : List Stmt} {now : Time}
    (h : AllPlain dirty) :
    AllPlain (transitionStmts before after target correlationId reason dirty now) :=
  ((updateCase _ _).append h).append audit

theorem turnAway (d : Diagnosis) : AllPlain d.turnAwayStmts := by
  have hrequest : AllPlain [d.requestStmt] := audit
  exact hrequest.append (transition nil)

theorem diagnosis (d : Diagnosis) : AllPlain d.stmts := by
  have hrequest : AllPlain [d.requestStmt] := audit
  have hadmission : AllPlain d.admissionStmts := by
    unfold Diagnosis.admissionStmts
    split
    · exact transition nil
    · exact nil
  have hai : AllPlain d.aiStmts := audit.append audit
  have hrecommendation : AllPlain d.recommendationStmts :=
    (((transition nil).append hai).append (transition nil)).append (transition nil)
  have hreview : AllPlain d.reviewStmts :=
    ((caseUpdate _ _).append audit).append (transition nil)
  exact ((hrequest.append hadmission).append hrecommendation).append hreview

theorem claimCase (x : Execution) : AllPlain x.claimStmts :=
  (audit.append audit).append (transition nil)

theorem withhold (x : Execution) (reason : String) (now : Time) :
    AllPlain (x.withholdStmts reason now) :=
  (claimCase x).append (transition nil)

theorem giveUp (c : RecoveryCase) (attempt : RecoveryAttempt) (category : ProviderFailureCategory)
    (message reason correlationId : String) (completedAt now : Time) :
    AllPlain (giveUpStmts c attempt category message reason correlationId completedAt now) :=
  (attemptUpdate _ _).append (transition nil)

theorem observe (d : Delivery) (now : Time) : AllPlain (d.observeStmts now) :=
  (claim d.event).append ((linkUpdate _ _).append audit)

theorem recover (d : Delivery) (now now' : Time) : AllPlain (d.recoverStmts now now') :=
  (observe d now).append (transition nil)

theorem fail (d : Delivery) (attempt : Option RecoveryAttempt) (now now' : Time) :
    AllPlain (d.failStmts attempt now now') := by
  have hfailure : AllPlain (d.failureStmts attempt) := by
    cases attempt with
    | none => exact nil
    | some attempt => exact attemptUpdate _ _
  exact (observe d now).append (transition hfailure)

/-- Such statements refer to nothing. -/
theorem refersAll (h : AllPlain sts) (db : Db) : Stmt.RefersAll sts db := by
  induction sts generalizing db with
  | nil => trivial
  | cons st sts ih =>
    obtain ⟨hst, hsts⟩ := List.forall_mem_cons.mp h
    exact ⟨hst.refers db, ih hsts _⟩

end AllPlain

/-! ### The others -/

/-- A new payment refers to its customer, which is there by then: the update of its counters
has matched a row. -/
theorem Ingestion.refersAll {i : Ingestion} {db : Db} (hc : Store.checkAll i.stmts db = none) :
    Stmt.RefersAll i.stmts db := by
  unfold stmts paymentStmts at hc ⊢
  have hcustomer : AllPlain (if i.newCustomer then [.insertCustomer i.customer] else []) := by
    split
    · simp [AllPlain, Stmt.Plain]
    · exact .nil
  refine (hcustomer.refersAll db).append ?_
  rw [Store.checkAll_append, Option.or_eq_none_iff, Store.checkAll_cons_eq_none] at hc
  obtain ⟨-, hupdate, -⟩ := hc
  generalize Store.applyAll (if i.newCustomer then [Stmt.insertCustomer i.customer] else []) db =
    db' at hupdate ⊢
  have hexists : db'.CustomerExists i.customer.id := by
    change Stmt.ifMatched _ = none at hupdate
    by_contra hno
    rw [Db.CustomerExists, Bool.not_eq_true] at hno
    rw [hno] at hupdate
    cases hupdate
  exact ⟨trivial, hexists.evolves (.apply hupdate), trivial, trivial⟩

/-- An opened case refers to its payment. -/
theorem refersAll_openingStmts {id : Uuid} {payment : Payment} {createdAt auditedAt : Time}
    {correlationId : String} {db : Db} (h : db.PaymentSeen payment) :
    Stmt.RefersAll (openingStmts id payment createdAt correlationId auditedAt) db :=
  ⟨h.exists, trivial, trivial⟩

theorem refersAll_openings {openings : List Opening} {correlationId : String} {db : Db}
    (hc : Store.checkAll (openings.map fun o => Opening.stmts o correlationId).flatten db = none)
    (h : ∀ o ∈ openings, db.PaymentSeen o.2.1) :
    Stmt.RefersAll (openings.map fun o => Opening.stmts o correlationId).flatten db := by
  refine .of_forall hc fun st hst => ?_
  obtain ⟨l, hl, hst⟩ := List.mem_flatten.mp hst
  obtain ⟨o, ho, rfl⟩ := List.mem_map.mp hl
  simp only [Opening.stmts, openingStmts, List.mem_cons, List.not_mem_nil, or_false] at hst
  rcases hst with rfl | rfl
  · exact (h o ho).exists
  · trivial

/-- An attempt in hand is there, and is one of the case in hand. -/
theorem Lawful.attemptOf_of_hand {c : RecoveryCase} {a : RecoveryAttempt} (h : Lawful H)
    (hand : (phase (H.own t)).hand? = some (c, a)) : H.replay.AttemptOf a.id c.id := by
  obtain ⟨r, hr, hentry⟩ := List.mem_map.mp (h.inStep.handed.inProgress t c a hand).2
  rw [RecoveryAttempt.entry, AttemptEntry.mk.injEq] at hentry
  refine ⟨r, ?_, hentry.2.1⟩
  rw [← hentry.1]
  exact h.distinct.attemptId.get?_of_mem hr

/-- The record of a link refers to the case and the attempt in hand. -/
theorem refersAll_recordStmts {c : RecoveryCase} {attempt : RecoveryAttempt}
    {link : PaymentLinkSnapshot} {id : Uuid} {completedAt now : Time} {correlationId : String}
    {db : Db} (hc : Store.checkAll
      (recordStmts c attempt link id completedAt correlationId now) db = none)
    (hcase : db.CaseExists c.id) (hattempt : db.AttemptOf attempt.id c.id) :
    Stmt.RefersAll (recordStmts c attempt link id completedAt correlationId now) db := by
  have hplain : AllPlain (.updateCase c c.counted ::
      attempt.pendingUpdate (attempt.succeed link completedAt)) :=
    (AllPlain.updateCase _ _).append (.attemptUpdate _ _)
  refine .of_forall hc fun st hst => ?_
  rw [recordStmts, recordFlush, List.append_assoc, List.mem_append] at hst
  rcases hst with hst | hst
  · exact (hplain st hst).refers db
  · simp only [List.cons_append, List.nil_append, List.mem_cons, List.not_mem_nil,
      or_false] at hst
    rcases hst with rfl | rfl
    · exact ⟨hcase, hattempt⟩
    · trivial

/-! ### Every run -/

/-- **What is committed refers to what is there**, statement by statement. -/
theorem Lawful.refersAll (h : Lawful ((t, .committed sts) :: H)) :
    Stmt.RefersAll sts H.replay := by
  obtain ⟨hbefore, htxn, hchecked⟩ := h.cons_inv
  have hc := hchecked sts rfl
  change Txn _ _ _ at htxn
  cases htxn with
  | ingested i => exact Ingestion.refersAll hc
  | ingestedWithCase i id createdAt t' =>
    rw [Store.checkAll_append, Option.or_eq_none_iff] at hc
    -- the case comes after its payment
    exact (Ingestion.refersAll hc.1).append
      (refersAll_openingStmts (paymentSeen_of_paymentStmts hc.1))
  | deduplicated => exact AllPlain.audit.refersAll _
  | opened openings correlationId op idle failed =>
    exact refersAll_openings hc fun o ho => (failed o ho).1
  | turnedAway d => exact (AllPlain.turnAway d).refersAll _
  | diagnosed d => exact (AllPlain.diagnosis d).refersAll _
  | claimed x => exact (AllPlain.claimCase x).refersAll _
  | withheld x reason now => exact (AllPlain.withhold x reason now).refersAll _
  | attempted c payment correlationId reference id startedAt createdAt now op claimed =>
    have hseen : H.replay.CaseSeen c := hbefore.caseSeen_of_inHand (by rw [claimed]; rfl)
    exact ⟨hseen.exists, trivial, trivial⟩
  | recorded c attempt made link id completedAt correlationId now op inHand caseSeen =>
    have hand := (Phase.hand?_of_inHand inHand []).1
    exact refersAll_recordStmts hc caseSeen.exists (hbefore.attemptOf_of_hand hand)
  | reconciled => exact (AllPlain.audit.append AllPlain.audit).refersAll _
  | gaveUp c attempt made category message reason correlationId completedAt now =>
    exact (AllPlain.giveUp c attempt category message reason correlationId completedAt
      now).refersAll _
  | ignored event => exact (AllPlain.claim event).refersAll _
  | unmatched event => exact ((AllPlain.claim event).append AllPlain.audit).refersAll _
  | detached event => exact (AllPlain.claim event).refersAll _
  | observed d now => exact (AllPlain.observe d now).refersAll _
  | recovered d now now' => exact (AllPlain.recover d now now').refersAll _
  | failed d attempt now now' => exact (AllPlain.fail d attempt now now').refersAll _
  | cycled => exact AllPlain.audit.refersAll _

/-- The rows name rows that are there. -/
theorem Lawful.referential (h : Lawful H) : H.replay.Referential := by
  induction h using Lawful.induction with
  | refl => exact .empty
  | @cons H t e before hlawful ih =>
    cases e with
    | committed sts => exact ih.applyAll (hlawful.cons_inv.2.2 sts rfl) hlawful.refersAll
    | _ => exact ih

/-- **Referential integrity.** In every reachable state each payment names a customer, each case
a payment, each attempt a case, and each link a case and an attempt of that very case; and every
statement of every committed transaction has found what it refers to. -/
theorem references_hold {w : World} (hw : Reachable w) : w.shared.db.Referential ∧
    ∀ (newer older : History) (t : Tid) (sts : List Stmt),
      w.shared.history = newer ++ (t, .committed sts) :: older →
        Stmt.RefersAll sts older.replay := by
  have hl := Reachable.lawful hw
  refine ⟨?_, fun newer older t sts hsplit => ?_⟩
  · rw [Reachable.db_eq hw]
    exact hl.referential
  · rw [hsplit] at hl
    exact hl.of_append.refersAll

set_option maxRecDepth 10000 in
/-- A run with a row in each table. -/
theorem references_hold_executed :
    (World.empty.after Sample.executed).shared.db.recoveryPaymentRequests ≠ [] ∧
      (World.empty.after Sample.executed).shared.db.Referential := by
  refine ⟨by decide +kernel, ?_⟩
  exact (references_hold (World.reachable_after Sample.executed)).1

end RecoverAI
