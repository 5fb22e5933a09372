import RecoverAI.Runs.Canonical
import RecoverAI.Runs.Intake
import RecoverAI.Services.RecoverySummary

/-!
# The recovery summary balances

The figures of the summary are sums over the cases. That they balance is a fact about each
case: its revenue at risk is the amount of its payment, and it has recovered that amount,
and is eligible, or nothing (`CaseBalanced`). The last holds in the runs in which the provider echoes the
amounts it is asked for and whoever pays pays in full.
-/

namespace RecoverAI

open Interleave

variable {H : History} {t u : Tid} {e : Event} {c : RecoveryCase}

/-! ### The events of a run -/

namespace History

/-- Every event of the record has the property, given the record before it. -/
def All (P : History → Tid → Event → Prop) : History → Prop
  | [] => True
  | p :: H => P H p.1 p.2 ∧ All P H

instance {P : History → Tid → Event → Prop} [∀ H t e, Decidable (P H t e)] :
    ∀ H, Decidable (All P H)
  | [] => .isTrue trivial
  | p :: H =>
    have : Decidable (All P H) := instDecidableAll H
    inferInstanceAs (Decidable (P H p.1 p.2 ∧ All P H))

theorem All.and {P Q : History → Tid → Event → Prop} {H : History} (h : All P H) (h' : All Q H) :
    All (fun H t e => P H t e ∧ Q H t e) H := by
  induction H with
  | nil => trivial
  | cons p H ih => exact ⟨⟨h.1, h'.1⟩, ih h.2 h'.2⟩

end History

/-- A lawful record whose events have the property. -/
theorem Lawful.extends_of_all {P : History → Tid → Event → Prop} (h : Lawful H)
    (ha : History.All P H) : Extends P [] H := by
  induction h with
  | refl => exact .refl
  | cons before permitted checked _ ih => exact .cons (ih ha.2) permitted checked ha.1

/-- The provider's answer is over the amount it was asked for. -/
def EchoesAmount (H : History) (t : Tid) : Event → Prop
  | .created _ request _ (.ok snapshot) => snapshot.amount = request.amount
  | .found _ (.ok (some snapshot)) =>
    ∀ request ∈ lastRequest (H.own t), snapshot.amount = request.amount
  | _ => True

/-- If the operation delivers a paid event, the event reports the amount of the link. -/
def Event.PaysInFull (link : RecoveryPaymentRequest) : Event → Prop
  | .started (.webhook event _) =>
    event.paymentLinkStatus = some RecoveryPaymentRequestStatus.paid.value →
      event.amountPaid = some link.amount
  | _ => True

/-- A paid event that finds its link reports the amount of the link. -/
def PaidInFull (H : History) (t : Tid) : Event → Prop
  | .selected (.paymentRequestByProviderReference _) (some link) =>
    ∀ e ∈ H.own t, e.PaysInFull link
  | _ => True

instance (H : History) (t : Tid) (e : Event) : Decidable (EchoesAmount H t e) := by
  unfold EchoesAmount
  split <;> infer_instance

instance (link : RecoveryPaymentRequest) (e : Event) : Decidable (e.PaysInFull link) := by
  unfold Event.PaysInFull
  split <;> infer_instance

instance (H : History) (t : Tid) (e : Event) : Decidable (PaidInFull H t e) := by
  unfold PaidInFull
  split <;> infer_instance

/-! ### One case -/

/-- The revenue at risk of a case is the amount of its payment. -/
def AtRisk (H : History) (c : RecoveryCase) : Prop :=
  ∃ p, H.replay.PaymentSeen p ∧ p.id = c.paymentId ∧ p.amount = c.revenueAtRisk

theorem Lawful.atRisk (h : Lawful H) :
    ∀ id c, H.replay.recoveryCases.get? id = some c → AtRisk H c := by
  have hkeep : ∀ (H : History) t e c, Lawful ((t, e) :: H) → AtRisk H c →
      AtRisk ((t, e) :: H) c := fun H t e c hl ⟨p, hp, hrest⟩ =>
    ⟨p, hp.evolves hl.evolves_cons, hrest⟩
  refine h.case_invariant hkeep (fun H payment id createdAt _ _ hseen => ⟨payment, hseen, rfl, rfl⟩)
    fun H t sts c c' hl _ hstep _ hi => ?_
  obtain ⟨p, hp, hid, hamount⟩ := hkeep H t _ c hl hi
  refine ⟨p, hp, ?_⟩
  cases hstep with
  | diagnosed d => rw [d.after_paymentId, d.after_revenueAtRisk]; exact ⟨hid, hamount⟩
  | _ => exact ⟨hid, hamount⟩

/-- The events of the runs in question. -/
def Balancing (H : History) (t : Tid) (e : Event) : Prop := EchoesAmount H t e ∧ PaidInFull H t e

/-- What was returned is over the amount that was asked for. -/
theorem Extends.amount_of_returned (h : Extends Balancing [] H)
    {request : CreatePaymentLinkRequest} {snapshot : PaymentLinkSnapshot}
    (hr : Returned (H.own t) request snapshot) : snapshot.amount = request.amount := by
  cases hr with
  | created caseId made mem =>
    obtain ⟨newer, older, -, -, -, hecho, -⟩ := h.split (History.mem_own.mp mem)
    exact hecho
  | found newer older reference split call =>
    obtain ⟨newer', older', rfl, rfl⟩ := History.split_of_own split
    cases h.of_append with
    | cons before permitted checked cond => exact cond.1 request call

/-- The links of a case are over its revenue at risk. -/
theorem Extends.amount_of_link (h : Extends Balancing [] H) {l : RecoveryPaymentRequest}
    (hl : H.replay.LinkSeen l) (hc : H.replay.recoveryCases.get? l.recoveryCaseId = some c) :
    l.amount = c.revenueAtRisk := by
  have hlawful : Lawful H := h.mono fun _ _ _ _ => trivial
  obtain ⟨row, hrow, hbecomes⟩ := hl
  obtain ⟨request, snapshot, payment, hrecorded⟩ :=
    hlawful.recordedFrom row (Table.mem_of_get? hrow)
  obtain ⟨u, hreturned⟩ := hrecorded.returned
  obtain ⟨c', hc', hpaymentId⟩ := hrecorded.recoveryCase
  rw [hbecomes.recoveryCaseId, hc] at hc'
  obtain rfl := Option.some.inj hc'
  obtain ⟨p, hp, hid, hamount⟩ := hlawful.atRisk _ c hc
  obtain rfl := hp.eq hrecorded.paymentSeen (hid.trans hpaymentId)
  rw [← hbecomes.amount, hrecorded.amount, h.amount_of_returned hreturned, hrecorded.requested.1,
    hamount]

/-- A delivery that finds a case paid in full credits the amount of the link. -/
theorem Delivery.amountPaid_observed {d : Delivery} (h : Extends Balancing [] H)
    (known : d.Known (H.own t) H.replay) (paid : d.status = .paid) (hpos : 0 < d.link.amount) :
    d.observed.amountPaid = d.link.amount := by
  have hread : (t, .selected (.paymentRequestByProviderReference d.paymentLinkId) (some d.link)) ∈ H :=
    History.mem_own.mp (known.reads.subset (List.mem_cons_of_mem _ List.mem_cons_self))
  obtain ⟨newer, older, rfl, hbefore, -, -, hpaid⟩ := h.split hread
  have hlawful : Lawful (newer ++ (t, .selected (.paymentRequestByProviderReference
      d.paymentLinkId) (some d.link)) :: older) := h.mono fun _ _ _ _ => trivial
  have hstarted := hlawful.started_mem (by simp) (History.mem_own.mp known.started)
  have hamount : d.event.amountPaid = some d.link.amount :=
    hpaid _ (History.mem_own.mpr hstarted) (by rw [known.status, paid])
  change (d.event.amountPaid.filter (· ≠ 0)).getD d.link.amountPaid = d.link.amount
  rw [hamount]
  simp [Option.filter, hpos.ne']

/-- **A recovered case has recovered what was at risk.** -/
theorem Extends.recoveredAmount (h : Extends Balancing [] H) :
    ∀ id c, H.replay.recoveryCases.get? id = some c → c.status = .recovered →
      c.recoveredAmount = c.revenueAtRisk := by
  have hlawful : Lawful H := h.mono fun _ _ _ _ => trivial
  refine fun id c hc => hlawful.case_invariant (I := fun H c => Extends Balancing [] H →
      c.status = .recovered → c.recoveredAmount = c.revenueAtRisk)
    (fun H t e c _ hi h => ?_) (fun H payment id createdAt _ _ _ _ hs => by cases hs)
    (fun H t sts c c' hl _ hstep hrow _ h hs => ?_) id c hc h
  · cases h with
    | cons before => exact hi before
  · cases h with
    | cons before =>
      cases hstep with
      | recovered d now now' known executing paid =>
        have hbefore := hl.cons_inv.1
        have hzero : d.loaded.recoveryCase.recoveredAmount = 0 :=
          (hbefore.caseInv hrow).unrecovered (by rw [executing]; simp)
        have hlink : d.link.amount = d.loaded.recoveryCase.revenueAtRisk := by
          refine before.amount_of_link known.linkSeen ?_
          rw [← known.caseId]
          exact hrow
        obtain ⟨p, hp, -, hamount⟩ := hbefore.atRisk _ _ hrow
        have hpos := (hbefore.of_payment (Table.mem_of_get? hp)).1
        change d.loaded.recoveryCase.recoveredAmount + d.observed.amountPaid =
          d.loaded.recoveryCase.revenueAtRisk
        rw [hzero, Int.zero_add, d.amountPaid_observed before known paid.1 (by omega), hlink]
      | diagnosed d =>
        rw [d.after_status] at hs
        rcases d.next_mem with h | h | h <;> rw [h] at hs <;> cases hs
      | recorded c attempt made link id completedAt correlationId now inHand =>
        have hexecuting := executing_of_phase (CaseStep.case?_of_inHand inHand)
        exact absurd (hexecuting.symm.trans hs) (by simp)
      | _ => cases hs

/-! ### The summary -/

/-- The payments that have a case. -/
def Db.casedPayments (db : Db) : Table Payment :=
  db.payments.filter fun p => Stmt.taken db.recoveryCases RecoveryCase.paymentId p.id

/-- What the summary is based on, for one case. -/
structure CaseBalanced (db : Db) (c : RecoveryCase) : Prop where
  payment : ∃ p, db.payments.get? c.paymentId = some p ∧ p.amount = c.revenueAtRisk
  atRisk : 0 < c.revenueAtRisk
  recovered : c.status = .recovered → c.recoveredAmount = c.revenueAtRisk ∧ c.eligible = true
  unrecovered : c.status ≠ .recovered → c.recoveredAmount = 0

theorem Extends.caseBalanced (h : Extends Balancing [] H)
    (hc : c ∈ H.replay.recoveryCases) : CaseBalanced H.replay c := by
  have hl : Lawful H := h.mono fun _ _ _ _ => trivial
  have hrow := hl.distinct.caseId.get?_of_mem hc
  obtain ⟨p, hp, hid, hamount⟩ := hl.atRisk _ c hrow
  have hinv := hl.caseInv hrow
  have hpos := (hl.of_payment (Table.mem_of_get? hp)).1
  rw [Db.PaymentSeen, hid] at hp
  refine ⟨⟨p, hp, hamount⟩, by omega, fun hs => ⟨h.recoveredAmount _ c hrow hs, ?_⟩,
    hinv.unrecovered⟩
  rcases hinv.eligible with he | he | he
  · rw [he] at hs; cases hs
  · rw [he] at hs; cases hs
  · exact he

namespace CaseBalanced

variable {db : Db}

/-- What a case has recovered is within what is at risk of eligible cases. -/
theorem recoveredAmount_le (h : CaseBalanced db c) :
    c.recoveredAmount ≤ if c.eligible then c.revenueAtRisk else 0 := by
  have hpos := h.atRisk
  by_cases hs : c.status = .recovered
  · obtain ⟨hamount, heligible⟩ := h.recovered hs
    rw [hamount, if_pos heligible]
  · rw [h.unrecovered hs]
    split <;> omega

theorem recoveredAmount_nonneg (h : CaseBalanced db c) : 0 ≤ c.recoveredAmount := by
  have hpos := h.atRisk
  by_cases hs : c.status = .recovered
  · rw [(h.recovered hs).1]
    omega
  · rw [h.unrecovered hs]

/-- Something is recovered of the recovered cases only. -/
theorem recoveredAmount_pos_iff (h : CaseBalanced db c) :
    0 < c.recoveredAmount ↔ c.status = .recovered := by
  refine ⟨fun hpos => ?_, fun hs => ?_⟩
  · by_contra hs
    rw [h.unrecovered hs] at hpos
    exact lt_irrefl _ hpos
  · rw [(h.recovered hs).1]
    exact h.atRisk

end CaseBalanced

/-- The summary balances. -/
structure RecoverySummary.Balances (s : RecoverySummary) (db : Db) : Prop where
  byStatus : (s.casesByStatus.map Prod.snd).sum = s.casesTotal
  confirmed_le : s.confirmedRecoveredRevenue ≤ s.eligibleRevenue
  eligible_le : s.eligibleRevenue ≤ s.totalRevenueAtRisk
  total : s.totalRevenueAtRisk = sumRows db.casedPayments Payment.amount
  outstanding : s.outstandingRevenue = s.eligibleRevenue - s.confirmedRecoveredRevenue
  recovered : db.recoveredCaseCount = countRows db.recoveryCases fun c => c.status = .recovered
  recoveryRate : 0 ≤ s.recoveryRate ∧ s.recoveryRate ≤ 1
  providerFailureRate : 0 ≤ s.providerFailureRate ∧ s.providerFailureRate ≤ 1
  escalationStopRate : 0 ≤ s.escalationRate + s.stopRate ∧ s.escalationRate + s.stopRate ≤ 1

section Balances

variable {db : Db} (hcases : ∀ c ∈ db.recoveryCases, CaseBalanced db c)
include hcases

theorem Db.confirmedRecoveredRevenue_le : db.confirmedRecoveredRevenue ≤ db.eligibleRevenue := by
  rw [confirmedRecoveredRevenue, eligibleRevenue, sumRows_filter]
  exact sumRows_le fun c hc => (hcases c hc).recoveredAmount_le

theorem Db.eligibleRevenue_le :
    db.eligibleRevenue ≤ sumRows db.recoveryCases RecoveryCase.revenueAtRisk := by
  rw [eligibleRevenue, sumRows_filter]
  refine sumRows_le fun c hc => ?_
  have hpos := (hcases c hc).atRisk
  split <;> omega

/-- As many cases as payments with a case: their ids are the same. -/
theorem Db.sumRows_casedPayments (hd : db.Distinct) :
    sumRows db.recoveryCases RecoveryCase.revenueAtRisk =
      sumRows db.casedPayments Payment.amount := by
  have hpayments : (db.casedPayments.map Payment.id).Nodup :=
    hd.paymentId.sublist (List.filter_sublist.map _)
  have hperm : (db.recoveryCases.map RecoveryCase.paymentId).Perm
      (db.casedPayments.map Payment.id) := by
    refine (List.perm_ext_iff_of_nodup hd.casePayment hpayments).mpr fun id => ?_
    constructor
    · intro hid
      obtain ⟨c, hc, rfl⟩ := List.mem_map.mp hid
      obtain ⟨p, hp, -⟩ := (hcases c hc).payment
      have hpid : p.id = c.paymentId := Table.key_of_get? hp
      refine List.mem_map.mpr ⟨p, List.mem_filter.mpr ⟨Table.mem_of_get? hp, ?_⟩, hpid⟩
      rw [hpid]
      exact List.any_eq_true.mpr ⟨c, hc, decide_eq_true rfl⟩
    · intro hid
      obtain ⟨p, hp, rfl⟩ := List.mem_map.mp hid
      obtain ⟨c, hc, he⟩ := List.any_eq_true.mp (List.mem_filter.mp hp).2
      exact List.mem_map.mpr ⟨c, hc, of_decide_eq_true he⟩
  -- both are sums of the amounts of these payments
  let amountOf : Uuid → Int := fun id => ((db.payments.get? id).map Payment.amount).getD 0
  calc sumRows db.recoveryCases RecoveryCase.revenueAtRisk
      = sumRows db.recoveryCases fun c => amountOf c.paymentId := by
        refine sumRows_congr fun c hc => ?_
        obtain ⟨p, hp, hamount⟩ := (hcases c hc).payment
        simp only [amountOf, hp, Option.map_some, Option.getD_some, hamount]
    _ = ((db.recoveryCases.map RecoveryCase.paymentId).map amountOf).sum := by
        rw [List.map_map]
        rfl
    _ = ((db.casedPayments.map Payment.id).map amountOf).sum := (hperm.map amountOf).sum_eq
    _ = sumRows db.casedPayments fun p => amountOf p.id := by
        rw [List.map_map]
        rfl
    _ = sumRows db.casedPayments Payment.amount := by
        refine sumRows_congr fun p hp => ?_
        have hget := hd.paymentId.get?_of_mem (List.mem_filter.mp hp).1
        change ((db.payments.get? (Keyed.key p)).map Payment.amount).getD 0 = _
        rw [hget]
        rfl

theorem computeRecoverySummary_balances (hd : db.Distinct) (now : Time) :
    (computeRecoverySummary db now).Balances db where
  byStatus := by
    change (db.casesByStatus.map Prod.snd).sum = countRows db.recoveryCases _
    rw [Db.casesByStatus_sum, countRows_true]
  confirmed_le := Db.confirmedRecoveredRevenue_le hcases
  eligible_le := Db.eligibleRevenue_le hcases
  total := Db.sumRows_casedPayments hcases hd
  outstanding := by
    have hle := Db.confirmedRecoveredRevenue_le hcases
    exact max_eq_right (by omega)
  recovered := countRows_congr fun c hc =>
    decide_eq_decide.mpr (hcases c hc).recoveredAmount_pos_iff
  recoveryRate := rate_mem (sumRows_nonneg fun c hc => (hcases c hc).recoveredAmount_nonneg)
    (Db.confirmedRecoveredRevenue_le hcases)
  providerFailureRate := by
    refine rate_mem countRows_nonneg ?_
    rw [countRows_true]
    exact countRows_le_length
  escalationStopRate := by
    change 0 ≤ rate (db.countByStatus .escalated) _ + rate (db.countByStatus .stopped) _ ∧
      rate (db.countByStatus .escalated) _ + rate (db.countByStatus .stopped) _ ≤ 1
    rw [rate_add, Db.countByStatus_eq, Db.countByStatus_eq]
    refine rate_mem (add_nonneg countRows_nonneg countRows_nonneg) ?_
    rw [countRows_true]
    refine countRows_add_le fun c _ hs => ?_
    rw [of_decide_eq_true hs]
    rfl

end Balances

/-- **The recovery summary always balances**, in every state reached by a run in which the
provider echoes the amounts it is asked for, and each paid event reports the amount of the
link it is about. -/
theorem summary_balances {w : World} (hw : Reachable w)
    (hechoes : History.All EchoesAmount w.shared.history)
    (hpaid : History.All PaidInFull w.shared.history)
    (now : Time) : (computeRecoverySummary w.shared.db now).Balances w.shared.db := by
  have hl := Reachable.lawful hw
  have hext : Extends Balancing [] w.shared.history :=
    hl.extends_of_all (hechoes.and hpaid)
  rw [Reachable.db_eq hw]
  exact computeRecoverySummary_balances (fun c hc => hext.caseBalanced hc) hl.distinct now

set_option maxRecDepth 10000 in
theorem summary_balances_paid :
    (computeRecoverySummary (World.empty.after Sample.paid).shared.db 0).recoveryRate = 1 ∧
    (computeRecoverySummary (World.empty.after Sample.paid).shared.db 0).Balances
      (World.empty.after Sample.paid).shared.db :=
  ⟨by decide +kernel, summary_balances (World.reachable_after _) (by decide +kernel)
    (by decide +kernel) 0⟩

end RecoverAI
