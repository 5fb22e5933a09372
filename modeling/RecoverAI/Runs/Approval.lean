import RecoverAI.Runs.Cases
import RecoverAI.Runs.Schedules

/-!
# What an approval is worth

An approved case is ready to be executed (`ready_of_reachable`): whatever the AI has
recommended, and however often the case was diagnosed before, the columns the executor
relies on are there. And a call of the provider rests on an approval
(`authorized_of_created`): the operation has read the case as approved by a diagnosis
that the policy allowed, the policy has allowed it once more on the stored values, and
EXECUTING is committed.
-/

namespace RecoverAI

open Interleave

/-! ### Ready to execute -/

/-- What the executor relies on. -/
structure Ready (db : Db) (c : RecoveryCase) : Prop where
  action : ∃ action ∈ EXECUTABLE_ACTIONS, c.recommendedAction = some action
  confidence : c.recoveryConfidence ≠ none
  eligible : c.eligible = true
  payment : ∃ p, db.payments.get? c.paymentId = some p ∧ p.status = .failed ∧ 0 < p.amount

theorem CaseInv.toReady {H : History} {c : RecoveryCase} (hi : CaseInv H c)
    (hs : c.status = .approved ∨ c.status = .executing) : Ready H.replay c where
  action := ⟨.sendPaymentLink, by decide, (hi.ready hs).1⟩
  confidence := Option.isSome_iff_ne_none.mp (hi.ready hs).2
  eligible := by
    rcases hi.eligible with h | h | h
    · rw [h] at hs; simp at hs
    · rw [h] at hs; simp at hs
    · exact h
  payment := by
    obtain ⟨p, hp, hid, hfailed, hpos⟩ := hi.payment
    rw [Db.PaymentSeen, hid] at hp
    exact ⟨p, hp, hfailed, hpos hs⟩

/-- The re-check of a case with an action does not raise. -/
theorem Ready.recheckPolicy_ends {db : Db} {c : RecoveryCase} (h : Ready db c) (p : Payment) :
    (recheckPolicy c p).run.Ends fun r => ∃ decision, r = .ok decision := by
  obtain ⟨action, -, haction⟩ := h.action
  intro settings now
  rw [recommendedActionOf, haction]
  exact ⟨_, rfl⟩

/-- **Approved means ready to execute.** In every reachable state a case in APPROVED or
EXECUTING has what the executor relies on; so the policy re-check of an approved case
does not raise, and the action the executor then reads from the claimed row is one it
implements. -/
theorem ready_of_reachable {w : World} (hw : Reachable w) {c : RecoveryCase}
    (hc : c ∈ w.shared.db.recoveryCases) (hs : c.status = .approved ∨ c.status = .executing) :
    Ready w.shared.db c ∧ (c.status = .approved → ∀ p,
      ((recheckPolicy c p).run.Ends fun r => ∃ decision, r = .ok decision) ∧
      (recommendedActionOf (c.moved c .executing)).run.Ends fun r =>
        ∃ action ∈ EXECUTABLE_ACTIONS, r = .ok action) := by
  have hl := Reachable.lawful hw
  rw [Reachable.db_eq hw] at hc ⊢
  have hready := (hl.caseInv (hl.distinct.caseId.get?_of_mem hc)).toReady hs
  refine ⟨hready, fun _ p => ⟨hready.recheckPolicy_ends p, ?_⟩⟩
  obtain ⟨action, hmem, haction⟩ := hready.action
  rw [recommendedActionOf, RecoveryCase.moved, haction]
  exact ⟨action, hmem, rfl⟩

set_option maxRecDepth 10000 in
theorem ready_of_reachable_approved :
    ∃ c ∈ (World.empty.after Sample.approved).shared.db.recoveryCases,
      c.status = .approved ∧ Ready (World.empty.after Sample.approved).shared.db c := by
  have hex : ∃ c ∈ (World.empty.after Sample.approved).shared.db.recoveryCases,
      c.status = .approved := by decide +kernel
  obtain ⟨c, hc, hs⟩ := hex
  exact ⟨c, hc, hs, (ready_of_reachable (World.reachable_after _) hc (.inl hs)).1⟩

/-! ### Calls of the provider -/

/-- What an execution has read of its case was committed when it read it. -/
theorem Lawful.caseSeen_of_read {H : History} (h : Lawful H) {t : Tid} {id : Uuid}
    {loaded : CaseForExecution}
    (hread : (t, .selected (.caseForExecution id) (some loaded)) ∈ H) :
    H.replay.CaseSeen loaded.recoveryCase ∧ loaded.recoveryCase.id = id := by
  obtain ⟨newer, older, rfl, hl, ⟨ranking, hresult⟩, -⟩ := h.split hread
  have hrow : (History.replay older).recoveryCases.get? id = some loaded.recoveryCase := by
    have hresult : (History.replay older).caseForExecution ranking id = some loaded := hresult.symm
    simp only [Db.caseForExecution, Option.bind_eq_bind, Option.bind_eq_some_iff] at hresult
    obtain ⟨c, hc, p, -, he⟩ := hresult
    cases he
    exact hc
  have hid : loaded.recoveryCase.id = id := Table.key_of_get? hrow
  refine ⟨?_, hid⟩
  rw [← hid] at hrow
  exact Db.CaseSeen.evolves ⟨_, hrow, .refl _⟩ h.evolves_of_append

/-- **What a call of the provider rests on**: `older` is the record before the call. -/
structure Authorized (older : History) (t : Tid) (caseId : Uuid)
    (request : CreatePaymentLinkRequest) (x : Execution) : Prop where
  /-- The case was approved when the operation read it. -/
  read : (t, .selected (.caseForExecution caseId)
    (some ⟨x.recoveryCase, x.payment, x.attempts⟩)) ∈ older
  approved : x.recoveryCase.status = .approved
  /-- The configuration and the time of the re-check are those of this execution. -/
  configured : (t, .configured x.settings) ∈ older
  clock : (t, .clock x.now) ∈ older
  /-- The operation has committed EXECUTING, from the row it had read, which an earlier
  diagnosis had committed with a policy ALLOW. -/
  claimed : ∃ between before : History, older = between ++ (t, .committed x.claimStmts) :: before ∧
    before.replay.recoveryCases.get? caseId = some x.recoveryCase ∧
    (History.replay ((t, .committed x.claimStmts) :: before)).recoveryCases.get? caseId =
      some x.claimed ∧ x.claimed.status = .executing ∧
    ∃ d, ApprovedBy before d ∧ d.before.id = caseId ∧ d.after = x.recoveryCase
  /-- The policy has allowed a payment link on the stored values. -/
  allowed : (evaluatePolicy (recheckPolicyInput x.recoveryCase x.payment .sendPaymentLink x.now)
    (getPolicyConfig x.settings)).decision = .allow
  payment : older.replay.payments.get? x.recoveryCase.paymentId = some x.payment
  amount : request.amount = x.payment.amount
  currency : request.currency = x.payment.currency

/-- What the policy has checked. -/
structure WithinPolicy (x : Execution) : Prop where
  amount_pos : 0 < x.payment.amount
  amount_le : x.payment.amount ≤ x.settings.policyMaxRecoveryAmount
  confidence : ∃ confidence, x.recoveryCase.recoveryConfidence = some confidence ∧
    (getPolicyConfig x.settings).confidenceThreshold x.payment.amount ≤ confidence
  contacts : x.recoveryCase.customerContactCount < x.settings.policyMaxCustomerContacts
  window : wholeDays (x.now - x.recoveryCase.createdAt) ≤ x.settings.policyMaxRecoveryWindowDays

theorem Execution.action_eq {x : Execution} (h : x.Cleared) : x.action = .sendPaymentLink :=
  List.mem_singleton.mp h.executable

/-- A case that the policy allows a payment link for, and that has a confidence. -/
theorem WithinPolicy.of_allowed {x : Execution} (hready : x.recoveryCase.recoveryConfidence.isSome)
    (h : (evaluatePolicy (recheckPolicyInput x.recoveryCase x.payment .sendPaymentLink x.now)
      (getPolicyConfig x.settings)).decision = .allow) : WithinPolicy x := by
  obtain ⟨-, hwindow, hcontacts, hpos, hle, hconfidence⟩ :=
    (evaluatePolicy_sendPaymentLink_iff rfl).mp h
  obtain ⟨confidence, hsome⟩ := Option.isSome_iff_exists.mp hready
  refine ⟨hpos, hle, ⟨confidence, hsome, ?_⟩, hcontacts, hwindow⟩
  simp only [recheckPolicyInput, hsome, Option.getD_some] at hconfidence
  exact hconfidence

/-- The row of a claim was, when it was committed, the row the operation had read. -/
theorem Lawful.row_of_claim {H : History} {t : Tid} {x : Execution}
    (h : Lawful ((t, .committed x.claimStmts) :: H)) (hreads : x.reads <+: H.own t) :
    H.replay.recoveryCases.get? x.recoveryCase.id = some x.recoveryCase := by
  obtain ⟨hl, -, hc⟩ := h.cons_inv
  have hread : (t, .selected (.caseForExecution x.recoveryCase.id)
      (some ⟨x.recoveryCase, x.payment, x.attempts⟩)) ∈ H :=
    History.mem_own.mp (hreads.subset (by simp [Execution.reads]))
  refine (hl.caseSeen_of_read hread).1.of_checkAll ?_ (hc _ rfl)
  simp [auditStmt, Stmt.table]

theorem Lawful.authorized {older : History} {t : Tid} {caseId : Uuid}
    {request : CreatePaymentLinkRequest} {x : Execution} {attempt : RecoveryAttempt}
    (hl : Lawful older) (hcall : Called (older.own t) older.replay caseId request x attempt) :
    Authorized older t caseId request x ∧ WithinPolicy x := by
  obtain ⟨es, es', hown⟩ := hcall.reads
  have hown' : older.own t = es ++ .committed x.claimStmts :: (x.reads ++ es') := by
    rw [← hown, List.append_assoc, List.cons_append]
  obtain ⟨between, before, rfl, hbefore⟩ := History.split_of_own hown'
  have hclaim := hl.of_append
  have hreads : x.reads <+: before.own t := ⟨es', hbefore.symm⟩
  have hrow := hclaim.row_of_claim hreads
  -- the approved row is as an earlier diagnosis has left it
  have hinv := hclaim.cons_inv.1.caseInv hrow
  obtain ⟨d, hd, hafter⟩ := hinv.approved hcall.known.approved
  have hmem : ∀ e ∈ x.reads, (t, e) ∈ between ++ (t, .committed x.claimStmts) :: before :=
    fun e he => List.mem_append_right _
      (List.mem_cons_of_mem _ (History.mem_own.mp (hreads.subset he)))
  have hallowed : (evaluatePolicy (recheckPolicyInput x.recoveryCase x.payment .sendPaymentLink
      x.now) (getPolicyConfig x.settings)).decision = .allow := by
    have h := hcall.cleared.allowed
    rwa [Execution.decision, Execution.action_eq hcall.cleared] at h
  obtain rfl := hcall.onBehalf
  refine ⟨⟨hmem _ (by simp [Execution.reads]), hcall.known.approved,
    hmem _ (by simp [Execution.reads]), hmem _ (by simp [Execution.reads]), ?_, hallowed, ?_,
    hcall.amount, hcall.currency⟩, .of_allowed (hinv.ready (.inl hcall.known.approved)).2 hallowed⟩
  · refine ⟨between, before, rfl, hrow, ?_, rfl, d, hd, ?_, hafter⟩
    · rw [History.replay_cons, Event.applyTo_committed, x.turns_claimStmts _ hrow, if_pos rfl]
    · rw [← hafter, d.after_id]
  · rw [← hcall.known.paymentId]
    exact hcall.known.paymentSeen

/-- **AI cannot authorize money.** Every call of the provider in every run rests on an
approval, on a re-check within the policy, and on a committed claim. -/
theorem authorized_of_created {w : World} (hw : Reachable w) {newer older : History} {t : Tid}
    {caseId : Uuid} {request : CreatePaymentLinkRequest} {made : Option PaymentLinkSnapshot}
    {answer : Except ProviderException PaymentLinkSnapshot}
    (h : w.shared.history = newer ++ (t, .created caseId request made answer) :: older) :
    ∃ x, Authorized older t caseId request x ∧ WithinPolicy x := by
  have hl := Reachable.lawful hw
  rw [h] at hl
  obtain ⟨hlawful, ⟨-, x, attempt, hcall⟩, -⟩ := hl.of_append.cons_inv
  exact ⟨x, hlawful.authorized hcall⟩

set_option maxRecDepth 10000 in
theorem authorized_of_created_sample :
    ∃ older t request x, Authorized older t 3 request x ∧ WithinPolicy x := by
  have hw : Reachable (World.empty.after Sample.executed) := World.reachable_after _
  have hcall : (World.empty.after Sample.executed).shared.history.any
      (fun p => p.2.isCall 3) = true := by decide +kernel
  obtain ⟨⟨t, e⟩, hmem, he⟩ := List.any_eq_true.mp hcall
  obtain ⟨request, made, answer, rfl⟩ := Event.exists_of_isCall he
  obtain ⟨newer, older, hsplit⟩ := List.append_of_mem hmem
  obtain ⟨x, hx, hpolicy⟩ := authorized_of_created hw hsplit
  exact ⟨older, t, request, x, hx, hpolicy⟩

end RecoverAI
