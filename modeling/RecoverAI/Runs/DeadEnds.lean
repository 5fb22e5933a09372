import RecoverAI.Runs.Deliveries
import RecoverAI.Runs.Intake
import RecoverAI.Runs.Links
import RecoverAI.Runs.Window
import RecoverAI.Services.Willing

/-!
# Cases without a way on

When no operation is under way, each of which may have been killed at any point, a case that
is not over can be brought to an end by one more operation: a diagnosis, an execution that
comes after the recovery window, or the delivery of a payment for a link of the case. The one
exception is a case in EXECUTING for which no link is recorded. Only the execution that has
claimed it could take it on, and that one is gone (`canFinish_iff`).
-/

namespace RecoverAI

open Interleave

variable {H : History} {t : Tid} {e : Event} {settings : Settings} {w w' : World}
  {c : RecoveryCase}

/-! ### The dead end -/

/-- The case is executing, nobody has it in hand, and no link is recorded for it. -/
structure Abandoned (H : History) (c : RecoveryCase) : Prop where
  row : H.replay.recoveryCases.get? c.id = some c
  executing : c.status = .executing
  notInHand : NotInHand H c
  unlinked : ∀ l ∈ H.replay.recoveryPaymentRequests, l.recoveryCaseId ≠ c.id

/-- No delivery is about an abandoned case. -/
theorem Abandoned.not_known (ha : Abandoned H c) {d : Delivery} {h : List Event}
    (known : d.Known h H.replay) : d.loaded.recoveryCase ≠ c := by
  rintro rfl
  obtain ⟨l, hl, hbecomes⟩ := known.linkSeen
  refine ha.unlinked l (Table.mem_of_get? hl) ?_
  rw [hbecomes.recoveryCaseId, known.caseId]

/-- And no event changes it. -/
theorem Abandoned.cons (ha : Abandoned H c) (h : Lawful ((t, e) :: H)) :
    Abandoned ((t, e) :: H) c := by
  cases h.waitStep ha.row ha.executing ha.notInHand with
  | recovered d now now' eq known paid loaded row => exact absurd loaded (ha.not_known known)
  | failed d attempt now now' eq known unpaid loaded row =>
    exact absurd loaded (ha.not_known known)
  | waits row notInHand =>
    refine ⟨row, ha.executing, notInHand, fun l hl hid => ?_⟩
    cases e with
    | committed sts =>
      rcases h.linkEffect.mem hl with ⟨c', attempt, made, link, id, completedAt, correlationId, now,
        rfl, hinHand, rfl⟩ | ⟨l₀, hl₀, -, hid₀, -⟩
      · -- the link is recorded by an execution that has the case in hand
        have hinHand := CaseStep.case?_of_inHand hinHand
        have hid : c'.id = c.id := hid
        obtain ⟨hl, -, hchecked⟩ := h.cons_inv
        have hrow := hl.row_of_record hinHand (hchecked _ rfl)
        rw [hid, ha.row, Option.some.injEq] at hrow
        exact absurd (ha.notInHand t c' hinHand hid) (by rw [hrow]; exact lt_irrefl _)
      · exact ha.unlinked l₀ hl₀ (hid₀.trans hid)
    | _ => exact ha.unlinked l hl hid

/-- **An abandoned case stays so for good**, whatever happens. -/
theorem Abandoned.extends {P : History → Tid → Event → Prop} {H' : History} (ha : Abandoned H c)
    (hl : Lawful H) (h : Extends P H H') : Abandoned H' c := by
  induction h with
  | refl => exact ha
  | @cons H' t e before permitted checked _ ih =>
    exact ih.cons (.cons (before.lawful hl) permitted checked trivial)

/-- With nothing under way, an executing case without a link is abandoned. -/
theorem Reachable.abandoned (hw : Reachable w) (hq : w.Quiescent)
    (hrow : w.shared.db.recoveryCases.get? c.id = some c) (hexecuting : c.status = .executing)
    (hunlinked : ∀ l ∈ w.shared.db.recoveryPaymentRequests, l.recoveryCaseId ≠ c.id) :
    Abandoned w.shared.history c := by
  rw [Reachable.db_eq hw] at hrow hunlinked
  refine ⟨hrow, hexecuting, fun u c' hc' _ => ?_, hunlinked⟩
  have hidle : phase (History.own w.shared.history u) = .idle := by
    rcases Reachable.own_of_quiescent hw hq u with h | ⟨o, older, h⟩
    · rw [h]
      rfl
    · rw [h, phase_cons]
      cases phase older with
      | _ => rfl
  rw [hidle] at hc'
  cases hc'

/-! ### Ways on -/

/-- The steps of a continuation under some settings: deliveries are for links that are
recorded. -/
def Proper (settings : Settings) (w : World) : Action → Prop
  | .start (.webhook e _) =>
    ∃ l ∈ w.shared.db.recoveryPaymentRequests, e.paymentLinkId = some l.providerReference
  | .run _ i => i.Under settings
  | _ => True

/-- Some continuation brings the case to an end. -/
def CanFinish (settings : Settings) (w : World) (caseId : Uuid) : Prop :=
  ∃ w', machine.ReachesVia (Proper settings) w w' ∧ ∃ c,
    w'.shared.db.recoveryCases.get? caseId = some c ∧ isTerminal c.status = true

/-- An abandoned case cannot. -/
theorem Abandoned.not_canFinish (hw : Reachable w) (ha : Abandoned w.shared.history c) :
    ¬ CanFinish settings w c.id := by
  rintro ⟨w', hreaches, c', hrow, hterminal⟩
  have ha' := ha.extends (Reachable.lawful hw) (extends_of_reaches hw hreaches.reaches)
  rw [Reachable.db_eq (hw.trans hreaches.reaches), ha'.row, Option.some.injEq] at hrow
  rw [← hrow, ha.executing] at hterminal
  cases hterminal

/-- What an operation can leave behind when it is performed, a continuation can. -/
theorem CanFinish.of_perform? {op : Op} {is : List Input} {outcome : Outcome} {s : State}
    {caseId : Uuid} (hstart : Proper settings w (.start op)) (his : ∀ i ∈ is, i.Under settings)
    (h : machine.perform? w.threads.length op is w.shared = some (outcome, s))
    (hc : ∃ c, s.db.recoveryCases.get? caseId = some c ∧ isTerminal c.status = true) :
    CanFinish settings w caseId :=
  ⟨_, Machine.reachesVia_of_perform? hstart (fun _ => his) (fun _ => trivial) h, hc⟩

theorem CanFinish.of_manages {op : Op} {caseId : Uuid} (hpending : w.shared.pending = [])
    (hstart : Proper settings w (.start op))
    (h : Service.Manages w.threads.length settings op.service w.shared.db [] fun _ db' _ =>
      ∃ c, db'.recoveryCases.get? caseId = some c ∧ isTerminal c.status = true) :
    CanFinish settings w caseId := by
  have hopened : (machine.start w.threads.length op w.shared).toTxns =
      .only w.threads.length w.shared.db [] := Txns.eq_only hpending _
  obtain ⟨is, r, s, his, hperformed, a, db', sts', -, hs, hQ⟩ := (h _ hopened).exists_perform?
  refine .of_perform? hstart his hperformed ?_
  have hdb : s.db = db' := congrArg Txns.db hs
  change ∃ c, s.db.recoveryCases.get? caseId = some c ∧ _
  rwa [hdb]

/-- A case that may be diagnosed is brought to an end by a diagnosis that recommends to
escalate it. -/
theorem CanFinish.of_diagnosable (hw : Reachable w) (hpending : w.shared.pending = [])
    (hrow : w.shared.db.recoveryCases.get? c.id = some c)
    (hstatus : c.status = .discovered ∨ c.status = .failed) : CanFinish settings w c.id := by
  have hl := Reachable.lawful hw
  have hrow' := hrow
  rw [Reachable.db_eq hw] at hrow'
  obtain ⟨p, hseen, hpid, hfailed, -⟩ := (hl.caseInv hrow').payment
  rw [Db.PaymentSeen, hpid] at hseen
  obtain ⟨hamount, hcustomer⟩ := hl.of_payment (Table.mem_of_get? hseen)
  rw [← Reachable.db_eq hw] at hseen hcustomer
  obtain ⟨u, hu⟩ := Option.isSome_iff_exists.mp hcustomer
  let d : Diagnosis := ⟨c, p, u, w.shared.db.attemptsOf [] c.id, Sample.aiOutcome .escalate,
    getPolicyConfig settings, 0, "", 0, 0, 0, 0, 0, 0, 0, 0, 0⟩
  have hread : w.shared.db.caseForDiagnosis [] d.before.id =
      some ⟨d.before, d.payment, d.customer, d.attempts⟩ := by
    simp [Db.caseForDiagnosis, d, hrow, hseen, hu]
  have heligible : d.eligible = true := by
    simpa [Diagnosis.eligible, d] using ⟨hfailed, hamount⟩
  have hterminal : isTerminal d.after.status = true := by
    rw [d.after_status]
    rcases d.next_mem with h | h | h
    · cases (Diagnosis.approved_iff.mp h).2
    · rw [h]
      rfl
    · rw [h]
      rfl
  have hstart : Proper settings w (.start (.diagnose c.id "")) := trivial
  refine .of_manages hpending hstart (Service.Manages.map ?_)
  refine (Service.manages_diagnoseRecoveryCase hread hrow hstatus heligible rfl).mono ?_
  rintro _ db' sts' ⟨-, hafter⟩
  exact ⟨d.after, hafter, hterminal⟩

/-- An approved case is brought to an end by an execution after the recovery window. -/
theorem CanFinish.of_approved (hw : Reachable w) (hpending : w.shared.pending = [])
    (hrow : w.shared.db.recoveryCases.get? c.id = some c) (hstatus : c.status = .approved) :
    CanFinish settings w c.id := by
  have hrow' := hrow
  rw [Reachable.db_eq hw] at hrow'
  have hinv := (Reachable.lawful hw).caseInv hrow'
  obtain ⟨p, hseen, hpid, -⟩ := hinv.payment
  rw [Db.PaymentSeen, hpid, ← Reachable.db_eq hw] at hseen
  let late : Time := c.createdAt + (settings.policyMaxRecoveryWindowDays + 1) * microsecondsPerDay
  let x : Execution := ⟨c, p, w.shared.db.attemptsOf [] c.id, settings, late, .sendPaymentLink, "",
    0, 0, 0⟩
  have hread : w.shared.db.caseForExecution [] x.recoveryCase.id =
      some ⟨x.recoveryCase, x.payment, x.attempts⟩ := by
    simp [Db.caseForExecution, x, hrow, hseen]
  have hblock : x.decision.decision = .block := by
    cases hd : x.decision.decision with
    | block => rfl
    | allow =>
      -- the window is over
      have hwindow := ((evaluatePolicy_sendPaymentLink_iff rfl).mp hd).2.1
      have hlate : late - c.createdAt < (settings.policyMaxRecoveryWindowDays + 1) *
          microsecondsPerDay := wholeDays_le_iff.mp hwindow
      have hwait : late - c.createdAt = (settings.policyMaxRecoveryWindowDays + 1) *
          microsecondsPerDay := add_sub_cancel_left _ _
      exact absurd hlate (by rw [hwait]; exact lt_irrefl _)
  have hstart : Proper settings w (.start (.execute c.id "")) := trivial
  refine .of_manages hpending hstart (Service.Manages.map ?_)
  refine (Service.manages_executeRecoveryCase_of_block hread hrow hstatus
    (hinv.ready (.inl hstatus)).1 hblock).mono ?_
  rintro _ db' sts' ⟨-, hafter⟩
  exact ⟨x.withheld, hafter, rfl⟩

/-- A key that is not in use: a long one. -/
theorem exists_unused_key (keys : List String) : ∃ key, key ∉ keys := by
  refine ⟨String.ofList (List.replicate ((keys.map String.length).sum + 1) 'k'), fun hmem => ?_⟩
  have hle := List.single_le_sum (fun _ _ => Nat.zero_le _) _
    (List.mem_map_of_mem (f := String.length) hmem)
  rw [String.length_ofList, List.length_replicate] at hle
  exact Nat.not_succ_le_self _ hle

/-- An executing case with a link is brought to an end by a payment. -/
theorem CanFinish.of_link (hw : Reachable w) (hpending : w.shared.pending = [])
    (hrow : w.shared.db.recoveryCases.get? c.id = some c) (hexecuting : c.status = .executing)
    {l : RecoveryPaymentRequest} (hl : l ∈ w.shared.db.recoveryPaymentRequests)
    (hlc : l.recoveryCaseId = c.id) : CanFinish settings w c.id := by
  have hs := Reachable.idle hw hpending
  have hx := Reachable.holds hw hl (hlc ▸ hrow)
  obtain ⟨key, hkey⟩ := exists_unused_key w.shared.db.dedupKeys
  let e : ParsedWebhookEvent := {
    eventType := some "payment_link.paid"
    paymentLinkId := some l.providerReference
    paymentLinkStatus := some RecoveryPaymentRequestStatus.paid.value
    amountPaid := some (max l.amount 1)
    paymentId := none
    dedupKey := key }
  have habout : e.About l := ⟨rfl, _, by simp [relevantLinkStatuses], rfl⟩
  have hpositive : max l.amount 1 ≠ 0 := by omega
  have hpaid : (l.received e).FullyPaid := by
    have hamount : (l.received e).amountPaid = max l.amount 1 := by
      change ((some (max l.amount 1)).filter fun a => decide (a ≠ 0)).getD l.amountPaid = _
      rw [Option.filter_some, if_pos (decide_eq_true hpositive), Option.getD_some]
    refine ⟨?_, ?_⟩
    · simp [RecoveryPaymentRequest.received, RecoveryPaymentRequest.observe,
        ParsedWebhookEvent.linkStatus?, e]
    · rw [hamount]
      exact le_max_left _ _
  obtain ⟨is, outcome, s, -, his, hperformed⟩ :=
    hs.exists_perform? settings w.threads.length (.webhook e "")
  obtain ⟨-, hdelivered⟩ := hs.delivered hx habout hperformed
  have hnew : ¬ e.TakenForDuplicate w.shared.db.dedupKeys := fun h => h.elim hkey (Option.some_ne_none _)
  rw [if_neg hnew] at hdelivered
  have hsettled : (Dues.take ⟨l, c⟩ e).recoveryCase.status = .recovered := by
    change (c.settledBy (l.received e)).status = _
    rw [RecoveryCase.settledBy_of_paid hexecuting hpaid]
    rfl
  have hstart : Proper settings w (.start (.webhook e "")) := ⟨l, hl, rfl⟩
  refine .of_perform? hstart his hperformed ⟨_, hlc ▸ hdelivered.1.row, ?_⟩
  rw [hsettled]
  rfl

/-- **Which cases can be brought to an end.** Where no operation is under way, each of which
may have been killed at any point, a case that is not over can be brought to an end by a
continuation, under whatever settings, if and only if it is not in EXECUTING without a
recorded link. Of the remote parties it is assumed that they raise no domain error into a cycle
whose session is open (`Reachable` is about `machine`): what spills from there could be a case
committed on the way of its diagnosis. -/
theorem canFinish_iff (hw : Reachable w) (hq : w.Quiescent) (settings : Settings)
    (hrow : w.shared.db.recoveryCases.get? c.id = some c) (hopen : isTerminal c.status = false) :
    CanFinish settings w c.id ↔ ¬ (c.status = .executing ∧
      ∀ l ∈ w.shared.db.recoveryPaymentRequests, l.recoveryCaseId ≠ c.id) := by
  have hpending := Reachable.pending_of_quiescent hw hq
  constructor
  · rintro hfinish ⟨hexecuting, hunlinked⟩
    exact (Reachable.abandoned hw hq hrow hexecuting hunlinked).not_canFinish hw hfinish
  · intro hlinked
    have hrow' := hrow
    rw [Reachable.db_eq hw] at hrow'
    have hsettled := ((Reachable.lawful hw).caseInv hrow').settled
    cases hstatus : c.status with
    | discovered => exact .of_diagnosable hw hpending hrow (.inl hstatus)
    | failed => exact .of_diagnosable hw hpending hrow (.inr hstatus)
    | approved => exact .of_approved hw hpending hrow hstatus
    | executing =>
      simp only [hstatus, true_and, not_forall, Classical.not_not] at hlinked
      obtain ⟨l, hl, hlc⟩ := hlinked
      exact .of_link hw hpending hrow hstatus hl hlc
    | eligible | diagnosing | recommended | policyReview =>
      rw [hstatus] at hsettled
      simp at hsettled
    | recovered | stopped | escalated | ineligible =>
      rw [hstatus] at hopen
      cases hopen

set_option maxRecDepth 10000 in
theorem canFinish_iff_approved : ∃ c : RecoveryCase, c.status = .approved ∧
    CanFinish Sample.settings (World.empty.after Sample.approved) c.id := by
  have hstatus : ((World.empty.after Sample.approved).shared.db.recoveryCases.get? 3).map
      RecoveryCase.status = some .approved := by decide +kernel
  have hgone : ∀ th ∈ (World.empty.after Sample.approved).threads, th.prog.isNone = true := by
    decide +kernel
  obtain ⟨c, hrow, hstatus⟩ := Option.map_eq_some_iff.mp hstatus
  have hid : c.id = 3 := Table.key_of_get? hrow
  refine ⟨c, hstatus, (canFinish_iff (World.reachable_after _) (fun th hth => ?_) Sample.settings
    (hid ▸ hrow) (by rw [hstatus]; rfl)).mpr (by rw [hstatus]; simp)⟩
  exact Option.isNone_iff_eq_none.mp (hgone th hth)

/-- An execution that is killed behind its first commit. -/
def Sample.killed : List Action :=
  approved ++ .start (.execute 3 "c") :: part 2 claim ++ [.crash 2]

set_option maxRecDepth 10000 in
/-- **A dead end**: an execution that is killed between claiming its case and recording a link
leaves a case in EXECUTING that no continuation brings to an end. -/
theorem killed_not_canFinish : Reachable (World.empty.after Sample.killed) ∧
    (World.empty.after Sample.killed).Quiescent ∧
    (World.empty.after Sample.killed).shared.db.statusOf 3 = some .executing ∧
    ∀ settings, ¬ CanFinish settings (World.empty.after Sample.killed) 3 := by
  have hw : Reachable (World.empty.after Sample.killed) := World.reachable_after _
  have hgone : ∀ th ∈ (World.empty.after Sample.killed).threads, th.prog.isNone = true := by
    decide +kernel
  have hq : (World.empty.after Sample.killed).Quiescent := fun th hth =>
    Option.isNone_iff_eq_none.mp (hgone th hth)
  have hstatus : (World.empty.after Sample.killed).shared.db.statusOf 3 = some .executing := by
    decide +kernel
  have hlinks : (World.empty.after Sample.killed).shared.db.recoveryPaymentRequests.length = 0 := by
    decide +kernel
  obtain ⟨c, hrow, hexecuting⟩ := Option.map_eq_some_iff.mp hstatus
  have hid : c.id = 3 := Table.key_of_get? hrow
  refine ⟨hw, hq, hstatus, fun settings => hid ▸ Abandoned.not_canFinish hw ?_⟩
  refine Reachable.abandoned hw hq (hid ▸ hrow) hexecuting fun l hl => ?_
  rw [List.length_eq_zero_iff.mp hlinks] at hl
  cases hl

end RecoverAI
