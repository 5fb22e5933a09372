import RecoverAI.Models.Columns
import RecoverAI.Runs.Alone
import RecoverAI.Runs.Correlation
import RecoverAI.Runs.Reports
import RecoverAI.Runs.Summary

/-!
# Payments and their columns

An admitted payment is written to a row of its own, and its amount is copied from there to
its case, to every attempt and, by a provider that returns what it is asked for, to every
link. The request bounds the amount and the attempt number from below only, so exactly the
requests that are small enough themselves fit the columns (`fitsColumns_iff`).
-/

namespace RecoverAI

open Interleave

variable {H : History} {t : Tid} {e : Event} {sts : List Stmt} {p : Payment}

/-! ### The row of a payment -/

/-- Operation `t` has committed the row. -/
def History.CommitsPayment (H : History) (t : Tid) (p : Payment) : Prop :=
  ∃ sts, (t, .committed sts) ∈ H ∧ .insertPayment p ∈ sts

/-- Statements add the payments they insert. -/
theorem Db.payments_applyAll (sts : List Stmt) (db : Db) :
    (Store.applyAll sts db).payments = db.payments ++ sts.filterMap Stmt.payment? := by
  refine Store.applyAll_adds Db.payments fun st db => ?_
  cases st with
  | insertPayment row => rfl
  | _ => exact (List.append_nil _).symm

theorem mem_payments_of_insert {db : Db} (h : .insertPayment p ∈ sts) :
    p ∈ (Store.applyAll sts db).payments := by
  rw [Db.payments_applyAll]
  exact List.mem_append_right _ (List.mem_filterMap.mpr ⟨_, h, rfl⟩)

/-- A transaction that inserts a payment is one of an ingestion, and the payment is the one it
reports. -/
theorem Lawful.ingestion_of_insert (h : Lawful ((t, .committed sts) :: H))
    (hp : .insertPayment p ∈ sts) :
    ∃ i : Ingestion, .started (.ingest i.request i.correlationId) ∈ H.own t ∧ i.payment = p := by
  have hinserted : p ∈ sts.filterMap Stmt.payment? := List.mem_filterMap.mpr ⟨_, hp, rfl⟩
  have hadded := Db.payments_applyAll sts H.replay
  cases h.intakeEffect with
  | same customers payments =>
    rw [payments, List.self_eq_append_right] at hadded
    rw [hadded] at hinserted
    cases hinserted
  | ingested i known mem checked customers payments =>
    rw [payments, List.append_cancel_left_eq] at hadded
    rw [← hadded] at hinserted
    exact ⟨i, known.started, (List.mem_singleton.mp hinserted).symm⟩

/-- **A row that is committed is there, as the request of its ingestion has it.** -/
theorem Lawful.of_commitsPayment (h : Lawful H) (hp : H.CommitsPayment t p) :
    p ∈ H.replay.payments ∧
      ∃ i : Ingestion, (t, .started (.ingest i.request i.correlationId)) ∈ H ∧ i.payment = p := by
  induction h using Lawful.induction with
  | refl =>
    obtain ⟨sts, hmem, -⟩ := hp
    cases hmem
  | @cons H u e before hlawful ih =>
    obtain ⟨sts, hmem, hinsert⟩ := hp
    rcases List.mem_cons.mp hmem with heq | hmem
    · obtain ⟨rfl, rfl⟩ := Prod.mk.inj heq
      obtain ⟨i, hstarted, hi⟩ := hlawful.ingestion_of_insert hinsert
      refine ⟨?_, i, List.mem_cons_of_mem _ (History.mem_own.mp hstarted), hi⟩
      rw [History.replay_cons, Event.applyTo_committed]
      exact mem_payments_of_insert hinsert
    · obtain ⟨hrow, i, hstarted, hi⟩ := ih ⟨sts, hmem, hinsert⟩
      refine ⟨?_, i, List.mem_cons_of_mem _ hstarted, hi⟩
      cases e with
      | committed sts =>
        rw [History.replay_cons, Event.applyTo_committed, Db.payments_applyAll]
        exact List.mem_append_left _ hrow
      | _ => exact hrow

/-- Every row has been committed by some operation. -/
theorem Lawful.commitsPayment (h : Lawful H) (hp : p ∈ H.replay.payments) :
    ∃ t, H.CommitsPayment t p := by
  induction h with
  | refl => cases hp
  | @cons H u e before permitted checked cond ih =>
    have hkept : p ∈ H.replay.payments → ∃ t, History.CommitsPayment ((u, e) :: H) t p := by
      intro hrow
      obtain ⟨t, sts, hmem, hinsert⟩ := ih hrow
      exact ⟨t, sts, List.mem_cons_of_mem _ hmem, hinsert⟩
    cases e with
    | committed sts =>
      rw [History.replay_cons, Event.applyTo_committed, Db.payments_applyAll] at hp
      rcases List.mem_append.mp hp with hrow | hinserted
      · exact hkept hrow
      · obtain ⟨st, hst, hpayment⟩ := List.mem_filterMap.mp hinserted
        refine ⟨u, sts, List.mem_cons_self, ?_⟩
        cases st with
        | insertPayment row => exact Option.some.inj hpayment ▸ hst
        | _ => cases hpayment
    | _ => exact hkept hp

/-! ### The amounts of attempts -/

/-- What an attempt is for: its case and its amount. -/
def Db.attemptAmounts (db : Db) : List (Uuid × Option Int) :=
  db.recoveryAttempts.map fun a => (a.recoveryCaseId, a.amount)

/-- No statement changes them, and statements add those of the attempts they insert. -/
theorem Db.attemptAmounts_applyAll (sts : List Stmt) (db : Db) :
    (Store.applyAll sts db).attemptAmounts = db.attemptAmounts ++
      (sts.filterMap Stmt.attemptInsert?).map fun a => (a.recoveryCaseId, a.amount) := by
  rw [List.map_filterMap]
  refine Store.applyAll_adds Db.attemptAmounts fun st db => ?_
  cases st with
  | insertAttempt a => exact List.map_append
  | updateAttempt before after =>
    have hkept := Table.map_update (t := db.recoveryAttempts) (k := before.id)
      (f := before.write after) (fun a => (a.recoveryCaseId, a.amount)) fun _ => rfl
    exact hkept.trans (List.append_nil _).symm
  | _ => exact (List.append_nil _).symm

/-- An attempt is for the amount of the payment of its case. -/
def AttemptFor (H : History) (caseId : Uuid) (amount : Option Int) : Prop :=
  ∃ c p, H.replay.recoveryCases.get? caseId = some c ∧ H.replay.PaymentSeen p ∧
    p.id = c.paymentId ∧ amount = some p.amount

theorem AttemptFor.cons {caseId : Uuid} {amount : Option Int} (h : AttemptFor H caseId amount)
    (hl : Lawful ((t, e) :: H)) : AttemptFor ((t, e) :: H) caseId amount := by
  obtain ⟨c, p, hc, hp, hid, hamount⟩ := h
  obtain ⟨c', hc', hbecomes⟩ := hl.evolves_cons.recoveryCase _ _ hc
  exact ⟨c', p, hc', hp.evolves hl.evolves_cons, hid.trans hbecomes.paymentId.symm, hamount⟩

/-- An attempt is only inserted by an execution that has claimed its case, for the payment of
that case. -/
theorem Txn.attempt_of_insert {h : List Event} {db : Db} {a : RecoveryAttempt} (htxn : Txn h db sts)
    (hstatus : ∀ c a, (phase h).hand? = some (c, a) → a.status = .inProgress)
    (ha : .insertAttempt a ∈ sts) : ∃ c p, phase h = .claimed c ∧ db.PaymentSeen p ∧
      p.id = c.paymentId ∧ a.recoveryCaseId = c.id ∧ a.amount = some p.amount := by
  have hupdate : ∀ before after : RecoveryAttempt,
      .insertAttempt a ∉ before.pendingUpdate after := by
    intro before after hmem
    have hnone := before.attemptInsert?_pendingUpdate after
    cases List.findSome?_eq_none_iff.mp hnone _ hmem
  have hbusy : phase h ≠ .idle := by
    intro hidle
    cases htxn.attemptEffect hstatus with
    | kept insert => cases List.findSome?_eq_none_iff.mp insert _ ha
    | started c a' claimed => rw [hidle] at claimed; cases claimed
    | concluded c a' status hand => rw [hidle] at hand; cases hand
  cases htxn with
  | attempted c p correlationId reference id startedAt createdAt now op claimed seen hid =>
    simp only [attemptStmts, auditStmt, List.mem_cons, Stmt.insertAttempt.injEq, reduceCtorEq,
      List.not_mem_nil, or_false] at ha
    subst ha
    exact ⟨c, p, claimed, seen, hid, rfl, rfl⟩
  | recorded => simp [recordStmts, recordFlush, auditStmt, hupdate] at ha
  | reconciled => simp [reconcileStmts, auditStmt] at ha
  | gaveUp => simp [giveUpStmts, transitionStmts, auditStmt, hupdate] at ha
  | _ => exact absurd ‹phase h = .idle› hbusy

theorem Lawful.attemptFor (h : Lawful H) :
    ∀ a ∈ H.replay.recoveryAttempts, AttemptFor H a.recoveryCaseId a.amount := by
  suffices hall : ∀ entry ∈ H.replay.attemptAmounts, AttemptFor H entry.1 entry.2 from
    fun a ha => hall _ (List.mem_map_of_mem ha)
  induction h with
  | refl => exact fun entry hentry => absurd hentry List.not_mem_nil
  | @cons H t e before permitted checked cond ih =>
    have hlawful : Lawful ((t, e) :: H) := .cons before permitted checked cond
    intro entry hentry
    cases e with
    | committed sts =>
      rw [History.replay_cons, Event.applyTo_committed, Db.attemptAmounts_applyAll] at hentry
      rcases List.mem_append.mp hentry with hold | hnew
      · exact (ih entry hold).cons hlawful
      · obtain ⟨a, ha, rfl⟩ := List.mem_map.mp hnew
        obtain ⟨st, hst, hinsert⟩ := List.mem_filterMap.mp ha
        have hmem : .insertAttempt a ∈ sts := by
          cases st with
          | insertAttempt row => exact Option.some.inj hinsert ▸ hst
          | _ => cases hinsert
        obtain ⟨c, p, claimed, seen, hid, hcase, hamount⟩ := permitted.attempt_of_insert
          (fun c a hc => ((Lawful.inStep before).handed.inProgress t c a hc).1) hmem
        obtain ⟨row, hrow, hbecomes⟩ :=
          Lawful.caseSeen_of_inHand before (c := c) (by rw [claimed]; rfl)
        have hfor : AttemptFor H a.recoveryCaseId a.amount :=
          ⟨row, p, hcase ▸ hrow, seen, hid.trans hbecomes.paymentId.symm, hamount⟩
        exact hfor.cons hlawful
    | _ => exact (ih entry hentry).cons hlawful

/-! ### What fits -/

/-- All that is written for the payment fits its column. The links are those of a provider that
returns the amount it is asked for. -/
structure State.ColumnsFit (s : State) (p : Payment) : Prop where
  amount : FitsInteger p.amount
  attemptNumber : FitsInteger p.attemptNumber
  revenueAtRisk : ∀ c ∈ s.db.recoveryCases, c.paymentId = p.id → FitsInteger c.revenueAtRisk
  attempts : ∀ c ∈ s.db.recoveryCases, c.paymentId = p.id →
    ∀ a ∈ s.db.recoveryAttempts, a.recoveryCaseId = c.id → ∀ n ∈ a.amount, FitsInteger n
  links : (∀ t request snapshot, Returned (s.own t) request snapshot →
      snapshot.amount = request.amount) → ∀ c ∈ s.db.recoveryCases, c.paymentId = p.id →
    ∀ l ∈ s.db.recoveryPaymentRequests, l.recoveryCaseId = c.id → FitsInteger l.amount

/-- What is written for a payment is its amount and its attempt number. -/
theorem Reachable.columnsFit {w : World} (hw : Reachable w) (hp : p ∈ w.shared.db.payments)
    (hamount : FitsInteger p.amount) (hattempt : FitsInteger p.attemptNumber) :
    w.shared.ColumnsFit p := by
  have hl := Reachable.lawful hw
  rw [Reachable.db_eq hw] at hp
  have hseen : (History.replay w.shared.history).PaymentSeen p :=
    hl.distinct.paymentId.get?_of_mem hp
  have hrow {c : RecoveryCase} (hc : c ∈ (History.replay w.shared.history).recoveryCases) :
      (History.replay w.shared.history).recoveryCases.get? c.id = some c :=
    hl.distinct.caseId.get?_of_mem hc
  -- the payment of a case is found by its id
  have hsame {p' : Payment} {c : RecoveryCase}
      (hseen' : (History.replay w.shared.history).PaymentSeen p') (hid : p'.id = c.paymentId)
      (hc : c.paymentId = p.id) : p' = p :=
    hseen'.eq hseen (hid.trans hc)
  refine ⟨hamount, hattempt, fun c hc hcp => ?_, fun c hc hcp a ha hac n hn => ?_,
    fun hechoes c hc hcp l hmem hlc => ?_⟩
  · rw [Reachable.db_eq hw] at hc
    obtain ⟨p', hseen', hid, hrisk⟩ := hl.atRisk _ c (hrow hc)
    rw [← hrisk, hsame hseen' hid hcp]
    exact hamount
  · rw [Reachable.db_eq hw] at hc ha
    obtain ⟨c', p', hc', hseen', hid, hfor⟩ := hl.attemptFor a ha
    rw [hac, hrow hc] at hc'
    obtain rfl := Option.some.inj hc'
    rw [hfor, hsame hseen' hid hcp] at hn
    exact Option.mem_some.mp hn ▸ hamount
  · rw [Reachable.db_eq hw] at hc hmem
    obtain ⟨request, snapshot, p', hrecorded⟩ := hl.recordedFrom l hmem
    obtain ⟨u, hreturned⟩ := hrecorded.returned
    obtain ⟨c', hc', hid⟩ := hrecorded.recoveryCase
    rw [hlc, hrow hc] at hc'
    obtain rfl := Option.some.inj hc'
    rw [hrecorded.amount, hechoes u request snapshot hreturned, hrecorded.requested.1,
      hsame hrecorded.paymentSeen hid.symm hcp]
    exact hamount

/-- Whatever the run, what is written for the payment of the request fits. -/
def PaymentIngestRequest.FitsColumns (request : PaymentIngestRequest) : Prop :=
  ∀ w t correlationId p, Reachable w →
    (t, .started (.ingest request correlationId)) ∈ w.shared.history →
    History.CommitsPayment w.shared.history t p → w.shared.ColumnsFit p

/-- With one operation in a run, whoever has started is that one. -/
theorem Reachable.eq_of_ops {w : World} {op op' : Op} (hw : Reachable w) (hops : w.ops = [op])
    (hstarted : (t, .started op') ∈ w.shared.history) : t = 0 ∧ op' = op := by
  have hop := hw.attributed.started t op' hstarted
  rw [hops] at hop
  cases t with
  | zero => exact ⟨rfl, (Option.some.inj hop).symm⟩
  | succ t => cases hop

/-- Every request is handled in some run. -/
theorem exists_committed (request : PaymentIngestRequest) : ∃ w t p, Reachable w ∧
    (t, .started (.ingest request "c")) ∈ w.shared.history ∧
    History.CommitsPayment w.shared.history t p ∧ p.amount = request.amount ∧
    p.attemptNumber = request.attemptNumber := by
  obtain ⟨is, outcome, s, hfresh, -, performed⟩ :=
    Sample.initial_idle.exists_perform? Sample.settings 0 (.ingest request "c")
  obtain ⟨-, -, response, rfl, -⟩ :=
    Sample.initial_idle.reported Sample.initial_inTurn hfresh performed
  let w : World := ⟨s, [⟨.ingest request "c", none⟩]⟩
  have hw : Reachable w := Machine.reaches_of_perform? (w := World.empty) performed
  have hl := Reachable.lawful hw
  obtain ⟨es, halone, -⟩ := alone_of_perform? (w := World.empty) .refl performed
  have hstarted : (0, .started (.ingest request "c")) ∈ s.history := by
    rw [halone.record]
    exact List.mem_cons_of_mem _ (List.mem_append_right _ List.mem_cons_self)
  have hended : (0, .ended (some (.ok (.paymentIngested response)))) ∈ s.history := by
    rw [halone.record]
    exact List.mem_cons_self
  obtain ⟨p, hp, -, -⟩ := Reachable.ingested hw hstarted hended
  rw [Reachable.db_eq hw] at hp
  obtain ⟨t, hcommits⟩ := hl.commitsPayment hp
  obtain ⟨-, i, hstarted', rfl⟩ := hl.of_commitsPayment hcommits
  obtain ⟨rfl, hop⟩ := hw.eq_of_ops (show w.ops = [.ingest request "c"] from rfl) hstarted'
  obtain ⟨hrequest, -⟩ := Op.ingest.inj hop
  refine ⟨w, 0, i.payment, hw, hstarted, hcommits, ?_, ?_⟩
  · exact congrArg PaymentIngestRequest.amount hrequest
  · exact congrArg PaymentIngestRequest.attemptNumber hrequest

/-- **Which payments fit their columns.** -/
theorem fitsColumns_iff (request : PaymentIngestRequest) :
    request.FitsColumns ↔
      request.amount ≤ 2 ^ 31 - 1 ∧ request.attemptNumber ≤ 2 ^ 31 - 1 := by
  constructor
  · intro hfits
    obtain ⟨w, t, p, hw, hstarted, hcommits, hamount, hattempt⟩ := exists_committed request
    have hcolumns := hfits w t "c" p hw hstarted hcommits
    exact ⟨hamount ▸ hcolumns.amount.2, hattempt ▸ hcolumns.attemptNumber.2⟩
  · rintro ⟨hamount, hattempt⟩ w t correlationId p hw hstarted hcommits
    obtain ⟨hrow, i, hstarted', rfl⟩ := (Reachable.lawful hw).of_commitsPayment hcommits
    have hops := hw.attributed.started t _ hstarted
    rw [hw.attributed.started t _ hstarted', Option.some.injEq, Op.ingest.injEq] at hops
    obtain ⟨hrequest, -⟩ := hops
    have hpos := request.amount_pos
    have hge := request.attemptNumber_ge
    rw [← Reachable.db_eq hw] at hrow
    refine hw.columnsFit hrow ⟨?_, ?_⟩ ⟨?_, ?_⟩
    all_goals
      simp only [Ingestion.payment, hrequest]
      omega

/-- A reported failure of 2^31 minor units. -/
def Sample.largeRequest : PaymentIngestRequest :=
  { request with amount := 2147483648, amount_pos := by decide }

/-- Its ingestion. -/
def Sample.large : List Action := alone 0 (.ingest largeRequest "c") (ingest 1 2 3)

set_option maxRecDepth 10000 in
/-- **An amount that no column holds** is written to the payment and to its case. -/
theorem large_not_fitsColumns : ¬ Sample.largeRequest.FitsColumns ∧
    Reachable (World.empty.after Sample.large) ∧
    (World.empty.after Sample.large).shared.db.payments.map Payment.amount = [2147483648] ∧
    (World.empty.after Sample.large).shared.db.recoveryCases.map RecoveryCase.revenueAtRisk =
      [2147483648] ∧ ¬ FitsInteger 2147483648 := by
  have hw : Reachable (World.empty.after Sample.large) := World.reachable_after _
  have hpayments : (World.empty.after Sample.large).shared.db.payments.map Payment.amount =
      [2147483648] := by decide +kernel
  have hcases : (World.empty.after Sample.large).shared.db.recoveryCases.map
      RecoveryCase.revenueAtRisk = [2147483648] := by decide +kernel
  refine ⟨fun hfits => ?_, hw, hpayments, hcases, by decide⟩
  have hl := Reachable.lawful hw
  have hin := List.mem_singleton_self (2147483648 : ℤ)
  rw [← hpayments] at hin
  obtain ⟨p, hp, hamount⟩ := List.mem_map.mp hin
  rw [Reachable.db_eq hw] at hp
  obtain ⟨t, hcommits⟩ := hl.commitsPayment hp
  obtain ⟨-, i, hstarted, -⟩ := hl.of_commitsPayment hcommits
  have hops : (World.empty.after Sample.large).ops = [.ingest Sample.largeRequest "c"] := rfl
  obtain ⟨rfl, hop⟩ := hw.eq_of_ops hops hstarted
  rw [hop] at hstarted
  have hfitting := (hfits _ 0 "c" p hw hstarted hcommits).amount
  rw [hamount] at hfitting
  exact absurd hfitting (by decide)

end RecoverAI
