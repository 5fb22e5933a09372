import RecoverAI.Runs.Links

/-!
# Recovered revenue

A case is credited by the delivery that recovers it, with the amount that the delivery
has in its session. What the row of the link says then is the same, unless another
delivery has written the amount of the link since it was read: an update writes the
columns that its session has changed, and the rows of links have no version.
`AmountHolds` is the condition that rules this out.
-/

namespace RecoverAI

open Interleave

variable {H : History} {t : Tid} {e : Event} {sts : List Stmt} {c : RecoveryCase}

/-- The link an event has read. -/
def Event.linkRead? : Event → Option RecoveryPaymentRequest
  | .selected (.paymentRequestByProviderReference _) link => link
  | _ => none

/-- The statement writes the amount of this link. -/
def Stmt.writesAmount (id : Uuid) : Stmt → Bool
  | .updatePaymentRequest before after => before.id = id ∧ after.amountPaid ≠ before.amountPaid
  | _ => false

/-- A transaction that recovers a case writes the amount of the link it has read, or
finds it as it was read. -/
def AmountHolds (H : History) (db : Db) (t : Tid) (sts : List Stmt) : Prop :=
  ∀ c ∈ sts.filterMap Stmt.caseUpdate?, c.2.status = .recovered →
    ∀ l ∈ (H.own t).filterMap Event.linkRead?,
      (∃ st ∈ sts, st.writesAmount l.id = true) ∨
        (db.recoveryPaymentRequests.get? l.id).map RecoveryPaymentRequest.amountPaid =
          some l.amountPaid

instance (H : History) (db : Db) (t : Tid) (sts : List Stmt) : Decidable (AmountHolds H db t sts) :=
  inferInstanceAs (Decidable (∀ c ∈ sts.filterMap Stmt.caseUpdate?, c.2.status = .recovered →
    ∀ l ∈ (H.own t).filterMap Event.linkRead?,
      (∃ st ∈ sts, st.writesAmount l.id = true) ∨
        (db.recoveryPaymentRequests.get? l.id).map RecoveryPaymentRequest.amountPaid =
          some l.amountPaid))

/-- **How a case was recovered**: by a delivery of operation `t`, the record before which
is `older`. The case was not yet recovered, and is then as it is now; the event reports
a link of the case as paid, and the amount of the link after the transaction is the one
recovered, no less than the link asks for. -/
structure RecoveredBy (older : History) (t : Tid) (d : Delivery) (sts : List Stmt)
    (c : RecoveryCase) : Prop where
  started : (t, .started (.webhook d.event d.correlationId)) ∈ older
  paid : d.event.paymentLinkStatus = some RecoveryPaymentRequestStatus.paid.value
  before : older.replay.statusOf c.id = some .executing
  after : (History.replay ((t, .committed sts) :: older)).recoveryCases.get? c.id = some c
  link : ∃ l ∈ (History.replay ((t, .committed sts) :: older)).recoveryPaymentRequests,
    d.event.paymentLinkId = some l.providerReference ∧ l.recoveryCaseId = c.id ∧
      c.recoveredAmount = l.amountPaid ∧ l.amount ≤ c.recoveredAmount

/-- What is recovered is what the link says. -/
theorem Delivery.amountPaid_write {d : Delivery} {row : RecoveryPaymentRequest} {now now' : Time}
    (hs : Settles d (d.recoverStmts now now'))
    (hcond : (∃ st ∈ d.recoverStmts now now', st.writesAmount d.link.id = true) ∨
      row.amountPaid = d.link.amountPaid) :
    (d.link.write d.observed row).amountPaid = d.observed.amountPaid := by
  change dirty d.link.amountPaid d.observed.amountPaid row.amountPaid = _
  unfold dirty
  split
  · next hsame =>
    rcases hcond with ⟨st, hst, hwrites⟩ | hrow
    · -- a written amount is a changed one
      cases st with
      | updatePaymentRequest before after =>
        obtain ⟨rfl, rfl⟩ := hs.eq_of_update hst
        have hne : d.observed.amountPaid ≠ d.link.amountPaid := by
          simpa [Stmt.writesAmount] using hwrites
        exact absurd hsame hne
      | _ => cases hwrites
    · rw [hrow, hsame]
  · rfl

/-- A delivery that recovers a case leaves it so recovered. -/
theorem Lawful.recoveredBy {d : Delivery} {now now' : Time}
    (h : Lawful ((t, .committed (d.recoverStmts now now')) :: H))
    (hcond : AmountHolds H H.replay t (d.recoverStmts now now'))
    (known : d.Known (H.own t) H.replay) (executing : d.loaded.recoveryCase.status = .executing)
    (paid : d.FullyPaid)
    (hrow : H.replay.recoveryCases.get? d.loaded.recoveryCase.id = some d.loaded.recoveryCase) :
    RecoveredBy H t d (d.recoverStmts now now') d.recovered := by
  have hs : Settles d (d.recoverStmts now now') := .recovered now now' executing paid
  have hstatus : d.status = .paid := paid.1
  obtain ⟨row, hlink, hbecomes⟩ := known.linkSeen
  -- the delivery has read its link
  have hread : d.link ∈ (H.own t).filterMap Event.linkRead? :=
    List.mem_filterMap.mpr ⟨_, known.reads.subset (List.mem_cons_of_mem _ List.mem_cons_self), rfl⟩
  have hupdate : (d.loaded.recoveryCase, { d.credited with status := .recovered }) ∈
      (d.recoverStmts now now').filterMap Stmt.caseUpdate? :=
    List.mem_filterMap.mpr ⟨_, List.mem_append_right _ List.mem_cons_self, rfl⟩
  have hamount : (d.link.write d.observed row).amountPaid = d.observed.amountPaid := by
    refine d.amountPaid_write hs ((hcond _ hupdate rfl _ hread).imp_right fun hsame => ?_)
    rw [hlink, Option.map_some, Option.some.injEq] at hsame
    exact hsame
  have hzero : d.loaded.recoveryCase.recoveredAmount = 0 :=
    (h.cons_inv.1.caseInv hrow).unrecovered (by rw [executing]; simp)
  have hrecovered : d.recovered.recoveredAmount = d.observed.amountPaid := by
    change d.loaded.recoveryCase.recoveredAmount + d.observed.amountPaid = _
    rw [hzero, Int.zero_add]
  refine ⟨History.mem_own.mp known.started, ?_, ?_, ?_, d.link.write d.observed row, ?_, ?_, ?_,
    ?_, ?_⟩
  · rw [known.status, hstatus]
  · change H.replay.statusOf d.loaded.recoveryCase.id = _
    rw [Db.statusOf, hrow, Option.map_some, executing]
  · have hafter := d.turns_recoverStmts now now' _ hrow d.loaded.recoveryCase.id
    rw [if_pos rfl] at hafter
    exact hafter
  · rw [History.replay_cons, Event.applyTo_committed, hs.links]
    have hkey : (Keyed.key row : Uuid) = d.link.id := Table.key_of_get? hlink
    exact Table.mem_update.mpr (.inr ⟨row, Table.mem_of_get? hlink, hkey, rfl⟩)
  · rw [known.linkId, ← known.reference, ← hbecomes.providerReference]
    rfl
  · change row.recoveryCaseId = d.loaded.recoveryCase.id
    rw [known.caseId, hbecomes.recoveryCaseId]
  · rw [hrecovered, hamount]
  · rw [hrecovered]
    change row.amount ≤ _
    rw [hbecomes.amount]
    exact paid.2

/-- **Amounts hold, so every recovered case was recovered by one delivery.** -/
theorem Extends.recoveredBy (h : Extends (CommitsMeet AmountHolds) [] H) :
    ∀ id c, H.replay.recoveryCases.get? id = some c → c.status = .recovered →
      ∃ (newer older : History) (t : Tid) (d : Delivery) (now now' : Time),
        H = newer ++ (t, .committed (d.recoverStmts now now')) :: older ∧
        RecoveredBy older t d (d.recoverStmts now now') c := by
  refine h.case_invariant
    (I := fun H c => c.status = .recovered → ∃ (newer older : History) (t : Tid) (d : Delivery)
      (now now' : Time), H = newer ++ (t, .committed (d.recoverStmts now now')) :: older ∧
        RecoveredBy older t d (d.recoverStmts now now') c)
    (fun H t e c _ hi hs => ?_) (fun H payment id createdAt _ _ _ hs => ?_)
    fun H t sts c c' hl hcond hstep hrow hi hs => ?_
  · obtain ⟨newer, older, u, d, now, now', rfl, hd⟩ := hi hs
    exact ⟨(t, e) :: newer, older, u, d, now, now', rfl, hd⟩
  · cases hs
  · cases hstep with
    | recovered d now now' known executing paid =>
      exact ⟨[], H, t, d, now, now', rfl, hl.recoveredBy (hcond _ rfl) known executing paid hrow⟩
    | diagnosed d =>
      rw [d.after_status] at hs
      rcases d.next_mem with h | h | h <;> rw [h] at hs <;> cases hs
    | recorded c attempt made link id completedAt correlationId now inHand =>
      have hc := executing_of_phase (CaseStep.case?_of_inHand inHand)
      exact absurd (hc.symm.trans hs) (by simp)
    | _ => cases hs

/-- **Recovered revenue is sound and counted once, as long as amounts hold.** In a run in
which no delivery overwrites the amount of a link between the read and the commit of
another one that recovers the case of the link, a case that is not recovered has nothing
recovered; one that is was recovered by one delivery, for what its link says; and it
stays as it is in every state reached from here. -/
theorem revenue_of_amountHolds {w : World}
    (h : machine.ReachesVia (OnCommit AmountHolds) World.empty w)
    (hc : c ∈ w.shared.db.recoveryCases) :
    (c.status ≠ .recovered → c.recoveredAmount = 0) ∧
    (c.status = .recovered →
      (∃ (newer older : History) (t : Tid) (d : Delivery) (now now' : Time),
        w.shared.history = newer ++ (t, .committed (d.recoverStmts now now')) :: older ∧
          RecoveredBy older t d (d.recoverStmts now now') c) ∧
      ∀ w', machine.Reaches w w' → w'.shared.db.recoveryCases.get? c.id = some c) := by
  have hw : Reachable w := h.reaches
  have hl := Reachable.lawful hw
  rw [Reachable.db_eq hw] at hc
  have hrow : (History.replay w.shared.history).recoveryCases.get? c.id = some c :=
    hl.distinct.caseId.get?_of_mem hc
  refine ⟨(hl.caseInv hrow).unrecovered, fun hrecovered => ⟨?_, fun w' hw' => ?_⟩⟩
  · have hext : Extends (CommitsMeet AmountHolds) [] w.shared.history :=
      extends_of_onCommit Machine.Reaches.refl h
    exact hext.recoveredBy c.id c hrow hrecovered
  · rw [Reachable.db_eq (hw.trans hw')]
    exact (extends_of_reaches hw hw').terminal hl hrow (by rw [hrecovered]; rfl)

set_option maxRecDepth 10000 in
theorem revenue_of_amountHolds_paid :
    ∃ c ∈ (World.empty.after Sample.paid).shared.db.recoveryCases, c.recoveredAmount = 500 ∧
      ∃ (newer older : History) (t : Tid) (d : Delivery) (now now' : Time),
        (World.empty.after Sample.paid).shared.history =
          newer ++ (t, .committed (d.recoverStmts now now')) :: older ∧
        RecoveredBy older t d (d.recoverStmts now now') c := by
  have hrun : machine.ReachesVia (OnCommit AmountHolds) World.empty
      (World.empty.after Sample.paid) := World.reachesVia_after (by decide +kernel)
  have hcase : ∃ c ∈ (World.empty.after Sample.paid).shared.db.recoveryCases,
      c.recoveredAmount = 500 ∧ c.status = .recovered := by decide +kernel
  obtain ⟨c, hc, hamount, hrecovered⟩ := hcase
  exact ⟨c, hc, hamount, ((revenue_of_amountHolds hrun hc).2 hrecovered).1⟩

/-- A link that expired with 500 paid is reported as paid while its case is approved
again; before that delivery looks at the case, another one has put the amount at 700 and
the case is executed. -/
def Sample.amountOverwritten : List Action :=
  executed ++ alone 3 (.webhook (event "k" "L" "expired" (some 500)) "c") (deliver ++ settle) ++
    alone 4 (.diagnose 3 "c") (diagnose false .sendPaymentLink) ++
    [.start (.webhook (event "k'" "L" "paid" (some 500)) "c")] ++ part 5 deliver ++
    alone 6 (.webhook (event "k''" "L" "paid" (some 700)) "c") (deliver ++ observe) ++
    [.start (.execute 3 "c")] ++ part 7 claim ++ part 5 settle ++ [.finish 5]

set_option maxRecDepth 10000 in
/-- 500 are recovered, and the only link of the case says 700. -/
theorem amountOverwritten_misstated :
    Reachable (World.empty.after Sample.amountOverwritten) ∧
    ∃ c ∈ (World.empty.after Sample.amountOverwritten).shared.db.recoveryCases,
      c.status = .recovered ∧ c.recoveredAmount = 500 ∧
      (World.empty.after Sample.amountOverwritten).shared.db.recoveryPaymentRequests.map
        (fun l => (l.recoveryCaseId, l.status, l.amountPaid)) = [(c.id, .paid, 700)] :=
  ⟨World.reachable_after _, by decide +kernel⟩

end RecoverAI
