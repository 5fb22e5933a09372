import RecoverAI.Runs.Executions
import RecoverAI.Protocol.Tables

/-!
# The payment links of a case

A case that fails is diagnosed and executed again, so it may come to own several links.
Two promises are about them together: a case that was paid is not asked to pay again,
and no more than one of its links can be paid at a time. Neither is looked after by the
executor, which reads the status of the case and none of its links; both hold in the
runs in which a delivery that changes a link leaves the case in keeping with it
(`PaidSettles`, `FailsAlone`).
-/

namespace RecoverAI

open Interleave

variable {P : History → Tid → Event → Prop} {H H' : History} {t u : Tid} {e : Event}
  {sts : List Stmt}

/-- What a commit of a lawful record does to the payment links. -/
theorem Lawful.linkEffect (h : Lawful ((t, .committed sts) :: H)) :
    LinkEffect (H.own t) H.replay sts :=
  (Txn.kind h.cons_inv.2.1).linkEffect

/-! ### The row of a link -/

/-- What an observed link becomes: the two columns of the observation, or its own. -/
theorem Delivery.status_write (d : Delivery) (l : RecoveryPaymentRequest) :
    (d.link.write d.observed l).status = d.status ∧ d.link.status ≠ d.status ∨
      (d.link.write d.observed l).status = l.status ∧ d.link.status = d.status := by
  change dirty d.link.status d.status l.status = _ ∧ _ ∨ dirty d.link.status d.status l.status = _ ∧ _
  unfold dirty
  by_cases h : d.status = d.link.status
  · -- A column that was not changed is not written.
    exact .inr ⟨if_pos h, h.symm⟩
  · exact .inl ⟨if_neg h, Ne.symm h⟩

/-- The statuses a delivery reports are final. -/
theorem Delivery.Known.final {d : Delivery} {h : List Event} {db : Db} (hd : d.Known h db) :
    d.status = .paid ∨ d.status = .expired ∨ d.status = .cancelled := by
  have hrelevant := hd.relevant
  revert hrelevant
  cases d.status <;> decide

/-- A link after a commit: new, or an old one with the same root. -/
theorem LinkEffect.mem {h : List Event} {db : Db} (he : LinkEffect h db sts)
    {l' : RecoveryPaymentRequest} (hl : l' ∈ (Store.applyAll sts db).recoveryPaymentRequests) :
    (∃ c attempt made link id completedAt correlationId t,
        sts = recordStmts c attempt link id completedAt correlationId t ∧
        (phase h = .called c attempt made (.ok link) ∨
          phase h = .reconciled c attempt made (.ok (some link))) ∧
        l' = paymentRequestOf id c attempt link) ∨
    ∃ l ∈ db.recoveryPaymentRequests, l.id = l'.id ∧ l.recoveryCaseId = l'.recoveryCaseId ∧
      (l' = l ∨ ∃ d : Delivery, d.Known h db ∧ Settles d sts ∧ l.id = d.link.id ∧
        l' = d.link.write d.observed l) := by
  cases he with
  | same links =>
    rw [links] at hl
    exact .inr ⟨l', hl, rfl, rfl, .inl rfl⟩
  | recorded c attempt made link id completedAt correlationId t eq inHand links =>
    rw [links] at hl
    rcases List.mem_append.mp hl with hl | hl
    · -- an old link, left alone
      exact .inr ⟨l', hl, rfl, rfl, .inl rfl⟩
    · -- the link that is recorded
      exact .inl ⟨c, attempt, made, link, id, completedAt, correlationId, t, eq, inHand,
        List.mem_singleton.mp hl⟩
  | settled d known settles links =>
    rw [links] at hl
    -- another link
    rcases Table.mem_update.mp hl with ⟨hl, -⟩ | ⟨l, hl₀, hid, rfl⟩
    · exact .inr ⟨l', hl, rfl, rfl, .inl rfl⟩
    · -- the link that was observed
      exact .inr ⟨l, hl₀, rfl, rfl, .inr ⟨d, known, settles, hid, rfl⟩⟩

/-! ### Paid links -/

/-- A transaction that marks a link of a case as paid leaves the case in a terminal
status, and no execution of the case is about to call the provider. -/
def PaidSettles (H : History) (db : Db) (_ : Tid) (sts : List Stmt) : Prop :=
  ∀ l ∈ (Store.applyAll sts db).recoveryPaymentRequests, l.status = .paid →
    (∃ l₀ ∈ db.recoveryPaymentRequests, l₀.id = l.id ∧ l₀.status = .paid) ∨
      ((Store.applyAll sts db).statusOf l.recoveryCaseId).any isTerminal = true ∧
        ∀ p ∈ H, (phase (H.own p.1)).open? ≠ some l.recoveryCaseId

instance (H : History) (db : Db) (t : Tid) (sts : List Stmt) : Decidable (PaidSettles H db t sts) :=
  inferInstanceAs (Decidable (∀ l ∈ (Store.applyAll sts db).recoveryPaymentRequests,
    l.status = .paid →
    (∃ l₀ ∈ db.recoveryPaymentRequests, l₀.id = l.id ∧ l₀.status = .paid) ∨
      ((Store.applyAll sts db).statusOf l.recoveryCaseId).any isTerminal = true ∧
        ∀ p ∈ H, (phase (H.own p.1)).open? ≠ some l.recoveryCaseId))

/-- A terminal case stays as it is. -/
theorem Lawful.terminal_cons {id : Uuid} {c : RecoveryCase} (h : Lawful ((t, e) :: H))
    (hc : H.replay.recoveryCases.get? id = some c) (hterminal : isTerminal c.status = true) :
    (History.replay ((t, e) :: H)).recoveryCases.get? id = some c := by
  cases e with
  | committed sts =>
    rw [History.replay_cons, Event.applyTo_committed]
    cases h.caseEffect with
    -- No case is written.
    | same quiet cases => rw [cases]; exact hc
    | opened rows quiet cases fresh => rw [cases]; exact Table.get?_append_of_some hc rows
    | moved c₁ c₂ step row cases =>
      -- The case that moved is another one: no step starts from a terminal status.
      have hne : c₁.id ≠ id := fun hid => by
        rw [hid, hc] at row
        obtain rfl := Option.some.inj row
        rw [step.not_isTerminal] at hterminal
        cases hterminal
      rw [cases, if_neg hne]
      exact hc
  | _ => exact hc

/-- A terminal case stays as it is for good. -/
theorem Extends.terminal {id : Uuid} {c : RecoveryCase} (h : Extends P H H') (hl : Lawful H)
    (hc : H.replay.recoveryCases.get? id = some c) (hterminal : isTerminal c.status = true) :
    H'.replay.recoveryCases.get? id = some c := by
  induction h with
  | refl => exact hc
  | @cons H' t e before permitted checked _ ih =>
    have hlawful : Lawful ((t, e) :: H') := .cons (before.lawful hl) permitted checked trivial
    exact hlawful.terminal_cons ih hterminal

/-- **A claim is the only way to an open one**, and takes the case from APPROVED to
EXECUTING. -/
theorem Lawful.open_cons {caseId : Uuid} (h : Lawful ((t, e) :: H))
    (hopen : (phase (History.own ((t, e) :: H) u)).open? = some caseId) :
    (phase (History.own H u)).open? = some caseId ∨
      (History.replay H).statusOf caseId = some .approved ∧
        (History.replay ((t, e) :: H)).statusOf caseId = some .executing := by
  -- Another operation makes no claim of this one.
  by_cases hu : u = t
  case neg =>
    rw [History.own_cons_ne hu] at hopen
    exact .inl hopen
  subst hu
  rw [History.own_cons_self, phase_cons] at hopen
  rcases Phase.open?_next hopen with hopen | ⟨hidle, sts, c, rfl, hclaim, rfl⟩
  · -- It had claimed the case before.
    exact .inl hopen
  · -- It claims it now, and a claim finds its case approved.
    obtain ⟨x, rfl, rfl, known, -, hreads⟩ := Txn.of_claimOf h.cons_inv.2.1 hidle hclaim
    have htakes := h.takes_of_claim hreads known.approved
    simp only [History.takes, decide_eq_true_eq] at htakes
    exact .inr htakes

/-- The case is terminal, and no execution of it is about to call the provider. -/
structure CaseClosed (H : History) (caseId : Uuid) : Prop where
  terminal : ∃ c, H.replay.recoveryCases.get? caseId = some c ∧ isTerminal c.status = true
  closed : ∀ u, (phase (History.own H u)).open? ≠ some caseId

/-- A closed case stays closed. -/
theorem CaseClosed.cons {caseId : Uuid} (hs : CaseClosed H caseId) (h : Lawful ((t, e) :: H)) :
    CaseClosed ((t, e) :: H) caseId where
  terminal := by
    obtain ⟨c, hc, hterminal⟩ := hs.terminal
    exact ⟨c, h.terminal_cons hc hterminal, hterminal⟩
  closed := by
    intro u hopen
    rcases h.open_cons hopen with hopen | ⟨happroved, -⟩
    · -- an old claim
      exact hs.closed u hopen
    · -- A claim of the case now would have found it approved, and it is terminal.
      obtain ⟨c, hc, hterminal⟩ := hs.terminal
      rw [Db.statusOf, hc, Option.map_some, Option.some.injEq] at happroved
      rw [happroved] at hterminal
      cases hterminal

/-- An operation that is not in the record has done nothing. -/
theorem phase_own_of_notMem {H : History} (h : ∀ p ∈ H, p.1 ≠ u) : H.own u = [] := by
  rw [History.own, List.map_eq_nil_iff, List.filter_eq_nil_iff]
  intro p hp
  simpa using h p hp

/-- What the condition says of the record after the commit. -/
theorem PaidSettles.closed {l : RecoveryPaymentRequest} (h : Lawful ((t, .committed sts) :: H))
    (hcond : ((Store.applyAll sts H.replay).statusOf l.recoveryCaseId).any isTerminal = true ∧
      ∀ p ∈ H, (phase (H.own p.1)).open? ≠ some l.recoveryCaseId) :
    CaseClosed ((t, .committed sts) :: H) l.recoveryCaseId := by
  obtain ⟨hterminal, hclosed⟩ := hcond
  have hopen : ∀ u, (phase (History.own H u)).open? ≠ some l.recoveryCaseId := by
    intro u
    -- The condition speaks of the operations in the record; another one has no phase but idle.
    by_cases hu : ∃ p ∈ H, p.1 = u
    · obtain ⟨p, hp, rfl⟩ := hu
      exact hclosed p hp
    · rw [phase_own_of_notMem fun p hp hpu => hu ⟨p, hp, hpu⟩]
      simp [Phase.open?]
  rw [Db.statusOf, Option.any_map, Option.any_eq_true] at hterminal
  obtain ⟨c, hc, hstatus⟩ := hterminal
  refine ⟨⟨c, hc, hstatus⟩, fun u hu => ?_⟩
  rcases h.open_cons hu with hu | ⟨-, hexecuting⟩
  · -- claimed before the commit
    exact hopen u hu
  · -- A claim in this very commit would leave the case executing.
    have hexecuting : (Store.applyAll sts H.replay).statusOf l.recoveryCaseId = _ := hexecuting
    rw [Db.statusOf, hc, Option.map_some, Option.some.injEq] at hexecuting
    rw [hexecuting] at hstatus
    cases hstatus

/-- In a run in which payments settle, a paid link belongs to a closed case. -/
theorem Extends.caseClosed (h : Extends (CommitsMeet PaidSettles) [] H) :
    ∀ l ∈ H.replay.recoveryPaymentRequests, l.status = .paid → CaseClosed H l.recoveryCaseId := by
  induction h using Extends.induction with
  | refl => exact fun l hl => by cases hl
  | @cons H t e before hlawful cond _ ih =>
    intro l hl hpaid
    cases e with
    | committed sts =>
      rcases cond sts rfl l hl hpaid with ⟨l₀, hl₀, hid, hpaid₀⟩ | hcond
      · -- the link was paid before
        have hrow := hlawful.cons_inv.1.distinct.linkId.get?_of_mem hl₀
        have hrow' := hlawful.distinct.linkId.get?_of_mem hl
        obtain ⟨l', hl', hbecomes⟩ := hlawful.evolves_cons.paymentRequest _ _ hrow
        have hid' : Keyed.key l₀ = (Keyed.key l : Uuid) := hid
        rw [hid', hrow', Option.some.injEq] at hl'
        rw [hl', hbecomes.recoveryCaseId]
        exact (ih l₀ hl₀ hpaid₀).cons hlawful
      · -- It is paid by this commit, which leaves the case closed.
        exact PaidSettles.closed hlawful hcond
    | _ => exact (ih l hl hpaid).cons hlawful

/-- **A paid case is not asked to pay again, as long as payments settle.** In a run in
which every transaction that marks a link as paid leaves the case of the link terminal
and finds no execution of it about to call the provider, no call is made for a case that
has a paid link. -/
theorem not_paid_of_created {w : World} (h : machine.ReachesVia (OnCommit PaidSettles) World.empty w)
    {newer older : History} {caseId : Uuid} {request : CreatePaymentLinkRequest}
    {made : Option PaymentLinkSnapshot} {answer : Except ProviderException PaymentLinkSnapshot}
    (hcall : w.shared.history = newer ++ (t, .created caseId request made answer) :: older) :
    ∀ l ∈ older.replay.recoveryPaymentRequests, l.recoveryCaseId = caseId → l.status ≠ .paid := by
  intro l hl hcase hpaid
  have hext : Extends (CommitsMeet PaidSettles) [] w.shared.history :=
    extends_of_onCommit Machine.Reaches.refl h
  have hlawful := Reachable.lawful h.reaches
  rw [hcall] at hext hlawful
  obtain ⟨-, ⟨-, x, attempt, hcalled⟩, -⟩ := hlawful.of_append.cons_inv
  rw [← List.singleton_append, ← List.append_assoc] at hext
  have hclosed := hext.of_append.caseClosed l hl hpaid
  -- The call is made by an execution that has the case open.
  refine hclosed.closed t ?_
  rw [hcalled.attempted, hcase, hcalled.onBehalf]
  rfl

namespace Sample

/-- The link is paid in full. -/
def paid : List Action :=
  executed ++ alone 3 (.webhook (event "k" "L" "paid" (some 500)) "c") (deliver ++ settle)

/-- The link is paid short of its amount, which fails the case; it is diagnosed and
executed again. -/
def paidShort : List Action :=
  executed ++ alone 3 (.webhook (event "k" "L" "paid" (some 400)) "c") (deliver ++ settle) ++
    alone 4 (.diagnose 3 "c") (diagnose false .sendPaymentLink) ++
    alone 5 (.execute 3 "c") (execute 20 21 22 "M")

end Sample

set_option maxRecDepth 10000 in
/-- The run with one payment in full is such a run, and its call finds no paid link. -/
theorem not_paid_of_created_paid : ∃ (newer older : History) (t : Tid)
    (request : CreatePaymentLinkRequest) (made : Option PaymentLinkSnapshot)
    (answer : Except ProviderException PaymentLinkSnapshot),
    (World.empty.after Sample.paid).shared.history =
      newer ++ (t, .created 3 request made answer) :: older ∧
    ∀ l ∈ older.replay.recoveryPaymentRequests, l.recoveryCaseId = 3 → l.status ≠ .paid := by
  have hrun : machine.ReachesVia (OnCommit PaidSettles) World.empty
      (World.empty.after Sample.paid) := World.reachesVia_after (by decide +kernel)
  have hcall : 0 < History.calls 3 (World.empty.after Sample.paid).shared.history := by
    decide +kernel
  obtain ⟨newer, older, t, e, hsplit, he⟩ := History.exists_of_count_pos hcall
  obtain ⟨request, made, answer, rfl⟩ := Event.exists_of_isCall he
  exact ⟨newer, older, t, request, made, answer, hsplit, not_paid_of_created hrun hsplit⟩

set_option maxRecDepth 10000 in
/-- A case with a paid link gets another one. -/
theorem paidShort_calledAgain : Reachable (World.empty.after Sample.paidShort) ∧
    ∃ (newer older : History) (t : Tid) (request : CreatePaymentLinkRequest)
      (made : Option PaymentLinkSnapshot) (answer : Except ProviderException PaymentLinkSnapshot),
      (World.empty.after Sample.paidShort).shared.history =
        newer ++ (t, .created 3 request made answer) :: older ∧
      ∃ l ∈ older.replay.recoveryPaymentRequests, l.recoveryCaseId = 3 ∧ l.status = .paid := by
  refine ⟨World.reachable_after _, ?_⟩
  -- The call is found among those at which a paid link of the case is in the database.
  have hcall : 0 < History.count (fun H _ e => e.isCall 3 &&
      decide (∃ l ∈ H.replay.recoveryPaymentRequests, l.recoveryCaseId = 3 ∧ l.status = .paid))
      (World.empty.after Sample.paidShort).shared.history := by
    decide +kernel
  obtain ⟨newer, older, t, e, hsplit, he⟩ := History.exists_of_count_pos hcall
  rw [Bool.and_eq_true, decide_eq_true_eq] at he
  obtain ⟨request, made, answer, rfl⟩ := Event.exists_of_isCall he.1
  exact ⟨newer, older, t, request, made, answer, hsplit, he.2⟩

/-! ### The case in hand -/

/-- A case in hand was in hand before, or has just been claimed. -/
theorem Lawful.inHand_cons {c : RecoveryCase} (h : Lawful ((t, e) :: H))
    (hc : (phase (History.own ((t, e) :: H) u)).case? = some c) :
    (phase (History.own H u)).case? = some c ∨
      ∃ x : Execution, e = .committed x.claimStmts ∧ c = x.claimed ∧
        x.Known H.replay ∧ x.Cleared ∧
        H.replay.recoveryCases.get? x.recoveryCase.id = some x.recoveryCase := by
  -- Another operation takes nothing in hand with this event.
  by_cases hu : u = t
  case neg =>
    rw [History.own_cons_ne hu] at hc
    exact .inl hc
  subst hu
  rw [History.own_cons_self, phase_cons] at hc
  rcases Phase.case?_next hc with hc | ⟨hidle, sts, rfl, hclaim⟩
  · exact .inl hc
  · obtain ⟨x, rfl, rfl, known, cleared, hreads⟩ := Txn.of_claimOf h.cons_inv.2.1 hidle hclaim
    exact .inr ⟨x, rfl, rfl, known, cleared, h.row_of_claim hreads⟩

/-- A case in hand was committed. -/
theorem Lawful.caseSeen_of_inHand {c : RecoveryCase} (h : Lawful H)
    (hc : (phase (History.own H u)).case? = some c) : H.replay.CaseSeen c := by
  induction h using Lawful.induction with
  | refl => cases hc
  | @cons H t e before hlawful ih =>
    rcases hlawful.inHand_cons hc with hc | ⟨x, rfl, rfl, -, -, hrow⟩
    · -- What was committed stays, in some later version.
      exact (ih hc).evolves hlawful.evolves_cons
    · -- What is in hand is the row that the claim itself has written.
      have hafter := x.turns_claimStmts _ hrow x.recoveryCase.id
      rw [if_pos rfl] at hafter
      exact .of_get? hafter

/-! ### Live links -/

/-- `ACTIVE_STATUSES`: the customer could still pay the link. -/
def ACTIVE_STATUSES : List RecoveryPaymentRequestStatus := [.created, .partiallyPaid]

/-- The link is live. -/
abbrev RecoveryPaymentRequest.Live (l : RecoveryPaymentRequest) : Prop :=
  l.status ∈ ACTIVE_STATUSES

/-- The statement updates this link. -/
def Stmt.updatesLink (id : Uuid) : Stmt → Bool
  | .updatePaymentRequest before _ => before.id = id
  | _ => false

/-- A transaction that fails a case leaves no link of the case live: whatever was, it
updates. -/
def FailsAlone (_ : History) (db : Db) (_ : Tid) (sts : List Stmt) : Prop :=
  ∀ c ∈ sts.filterMap Stmt.caseUpdate?, c.2.status = .failed →
    ∀ l ∈ db.recoveryPaymentRequests, l.recoveryCaseId = c.1.id → l.Live →
      ∃ st ∈ sts, st.updatesLink l.id = true

instance (H : History) (db : Db) (t : Tid) (sts : List Stmt) : Decidable (FailsAlone H db t sts) :=
  inferInstanceAs (Decidable (∀ c ∈ sts.filterMap Stmt.caseUpdate?, c.2.status = .failed →
    ∀ l ∈ db.recoveryPaymentRequests, l.recoveryCaseId = c.1.id → l.Live →
      ∃ st ∈ sts, st.updatesLink l.id = true))

/-- A link that was read as final is final for good. -/
theorem Extends.not_live {id : Uuid} (h : Extends P H H') (hl : Lawful H)
    (hdead : ∃ l, H.replay.recoveryPaymentRequests.get? id = some l ∧ ¬ l.Live) :
    ∃ l, H'.replay.recoveryPaymentRequests.get? id = some l ∧ ¬ l.Live := by
  induction h with
  | refl => exact hdead
  | @cons H' t e before permitted checked _ ih =>
    obtain ⟨l, hrow, hdead⟩ := ih
    have hlawful : Lawful ((t, e) :: H') := .cons (before.lawful hl) permitted checked trivial
    cases e with
    | committed sts =>
      rw [History.replay_cons, Event.applyTo_committed]
      cases hlawful.linkEffect with
      | same links => rw [links]; exact ⟨l, hrow, hdead⟩
      | recorded c attempt made link id completedAt correlationId t eq inHand links =>
        rw [links]
        exact ⟨l, Table.get?_append_of_some hrow _, hdead⟩
      | settled d known settles links =>
        rw [links, Table.get?_update (RecoveryPaymentRequest.keepsKey_write _ _)]
        -- the link that is observed
        split
        · refine ⟨_, by rw [hrow]; rfl, ?_⟩
          -- Its new status is one that a delivery reports, so it is final.
          rcases d.status_write l with ⟨hstatus, -⟩ | ⟨hstatus, -⟩
          · rw [RecoveryPaymentRequest.Live, hstatus]
            rcases known.final with h | h | h <;> rw [h] <;> decide
          · -- Or its status stays.
            rw [RecoveryPaymentRequest.Live, hstatus]
            exact hdead
        · -- another link
          exact ⟨l, hrow, hdead⟩
    | _ => exact ⟨l, hrow, hdead⟩

/-- A delivery that commits makes its link final. -/
theorem Lawful.not_live_of_settles {d : Delivery} {l : RecoveryPaymentRequest}
    (h : Lawful H) (known : d.Known (H.own t) H.replay)
    (hl : l ∈ H.replay.recoveryPaymentRequests) (hid : l.id = d.link.id) :
    ¬ (d.link.write d.observed l).Live := by
  have hfinal : d.status ∉ ACTIVE_STATUSES := by
    rcases known.final with h | h | h <;> rw [h] <;> decide
  rcases d.status_write l with ⟨hstatus, -⟩ | ⟨hstatus, hread⟩
  · -- The status is written, as it differs from the one that was read.
    rw [RecoveryPaymentRequest.Live, hstatus]
    exact hfinal
  · -- the link was read with the status that is now reported
    have hmem : (t, .selected (.paymentRequestByProviderReference d.paymentLinkId)
        (some d.link)) ∈ H :=
      History.mem_own.mp (known.reads.subset (by simp [Delivery.reads]))
    obtain ⟨newer, older, rfl, hl₀, ⟨ranking, hr⟩, -⟩ := h.split hmem
    have hrow : older.replay.recoveryPaymentRequests.get? d.link.id = some d.link := by
      have hr : some d.link = older.replay.recoveryPaymentRequests.find?
          fun l => l.providerReference = d.paymentLinkId := hr
      exact hl₀.distinct.linkId.get?_of_mem (List.mem_of_find?_eq_some hr.symm)
    obtain ⟨l', hrow', hdead⟩ := h.extends_of_split.not_live hl₀
      ⟨d.link, hrow, by rw [RecoveryPaymentRequest.Live, hread]; exact hfinal⟩
    have hrow := h.distinct.linkId.get?_of_mem hl
    have hkey : (Keyed.key l : Uuid) = d.link.id := hid
    rw [hkey, hrow', Option.some.injEq] at hrow
    rw [RecoveryPaymentRequest.Live, hstatus, ← hrow]
    exact hdead

/-- A delivery updates its own link only, and to what it has observed. -/
theorem Settles.eq_of_update {d : Delivery} {before after : RecoveryPaymentRequest}
    (h : Settles d sts) (hst : .updatePaymentRequest before after ∈ sts) :
    before = d.link ∧ after = d.observed := by
  -- Apart from the observation a delivery writes no link.
  have hinternal : ∀ {sts' : List Stmt}, Internal sts' →
      .updatePaymentRequest before after ∉ sts' := fun hi hmem => by
    have htable : Stmt.table (.updatePaymentRequest before after) ≠ .recoveryPaymentRequests :=
      hi.table_ne (by simp) _ hmem
    exact htable rfl
  have hobserve : ∀ now, .updatePaymentRequest before after ∈ d.observeStmts now →
      before = d.link ∧ after = d.observed := fun now hmem => by
    rw [Delivery.observeStmts, List.mem_cons, List.mem_append, List.mem_singleton] at hmem
    rcases hmem with hmem | hmem | hmem
    · cases hmem
    · exact Stmt.updatePaymentRequest.inj (RecoveryPaymentRequest.eq_of_mem_pendingUpdate hmem)
    · cases hmem
  cases h with
  -- One case for each way a delivery ends.
  | observed now => exact hobserve now hst
  | recovered now now' =>
    rcases List.mem_append.mp hst with hst | hst
    · exact hobserve now hst
    · exact absurd hst (hinternal (.transition .nil))
  | failed attempt now now' =>
    rcases List.mem_append.mp hst with hst | hst
    · exact hobserve now hst
    · exact absurd hst (hinternal
        (.transition fun st hst => .inr (.inl (d.table_failureStmts hst))))

/-- So the link that is updated is the one the delivery is about. -/
theorem Settles.eq_of_updatesLink {d : Delivery} {st : Stmt} {id : Uuid} (h : Settles d sts)
    (hst : st ∈ sts) (hu : st.updatesLink id = true) : d.link.id = id := by
  cases st with
  | updatePaymentRequest before after =>
    rw [← (h.eq_of_update hst).1]
    simpa [Stmt.updatesLink] using hu
  | _ => cases hu

/-- A live link after a commit is new, or was there before and has not been touched. -/
theorem Lawful.live_cons {l : RecoveryPaymentRequest} (h : Lawful ((t, .committed sts) :: H))
    (hl : l ∈ (Store.applyAll sts H.replay).recoveryPaymentRequests) (hlive : l.Live) :
    l ∈ H.replay.recoveryPaymentRequests ∨
      ∃ c attempt link id completedAt correlationId now,
        sts = recordStmts c attempt link id completedAt correlationId now ∧
        (phase (H.own t)).case? = some c ∧ l = paymentRequestOf id c attempt link := by
  rcases h.linkEffect.mem hl with ⟨c, attempt, made, link, id, completedAt, correlationId, now, hsts,
    hinHand, rfl⟩ | ⟨l₀, hl₀, hid, -, rfl | ⟨d, known, -, hid', rfl⟩⟩
  · -- recorded now
    exact .inr ⟨c, attempt, link, id, completedAt, correlationId, now, hsts,
      CaseStep.case?_of_inHand hinHand, rfl⟩
  · -- there before, and not observed
    exact .inl hl₀
  · -- Observed now, so it is not live.
    exact absurd hlive (h.cons_inv.1.not_live_of_settles known hl₀ hid')

/-- Whoever has the case of this row in hand has an older version of it. -/
def NotInHand (H : History) (c : RecoveryCase) : Prop :=
  ∀ u c', (phase (History.own H u)).case? = some c' → c'.id = c.id → c'.version < c.version

/-- What an event does to an executing case that nobody has in hand: nothing, unless a
delivery settles it. -/
inductive WaitStep (H : History) (t : Tid) (e : Event) (c : RecoveryCase) : Prop
  | waits (row : (History.replay ((t, e) :: H)).recoveryCases.get? c.id = some c)
      (notInHand : NotInHand ((t, e) :: H) c)
  | recovered (d : Delivery) (now now' : Time) (eq : e = .committed (d.recoverStmts now now'))
      (known : d.Known (H.own t) H.replay) (paid : d.FullyPaid) (loaded : d.loaded.recoveryCase = c)
      (row : (History.replay ((t, e) :: H)).recoveryCases.get? c.id = some d.recovered)
  | failed (d : Delivery) (attempt : Option RecoveryAttempt) (now now' : Time)
      (eq : e = .committed (d.failStmts attempt now now')) (known : d.Known (H.own t) H.replay)
      (unpaid : ¬ d.FullyPaid) (loaded : d.loaded.recoveryCase = c)
      (row : (History.replay ((t, e) :: H)).recoveryCases.get? c.id = some d.failed)

/-- What the next event does to it, by the moves there are. -/
theorem Lawful.waitStep (h : Lawful ((t, e) :: H)) {c : RecoveryCase}
    (hc : H.replay.recoveryCases.get? c.id = some c) (hexecuting : c.status = .executing)
    (hhand : NotInHand H c) : WaitStep H t e c := by
  -- whoever has the case in hand after the event had it before, for it is not approved
  have hhand' : NotInHand ((t, e) :: H) c := by
    intro u c' hc' hid
    rcases h.inHand_cons hc' with hc' | ⟨x, -, rfl, known, -, hrow⟩
    · exact hhand u c' hc' hid
    · -- A claim now would have found the case approved, but it is executing.
      have hid : x.recoveryCase.id = c.id := hid
      rw [hid, hc, Option.some.injEq] at hrow
      have happroved := known.approved
      rw [← hrow, hexecuting] at happroved
      cases happroved
  cases e with
  | committed sts =>
    have hkeep : (Store.applyAll sts H.replay).recoveryCases.get? c.id = some c →
        WaitStep H t (.committed sts) c := fun hrow => .waits hrow hhand'
    -- Which moves there are: the case is executing and nobody has it in hand, so only a delivery
    -- is left.
    cases h.caseEffect with
    | same quiet cases => exact hkeep (by rw [cases]; exact hc)
    | opened rows quiet cases fresh =>
      exact hkeep (by rw [cases]; exact Table.get?_append_of_some hc rows)
    | moved c₁ c₂ step row cases =>
      by_cases hid : c₁.id = c.id
      case neg => exact hkeep (by rw [cases, if_neg hid]; exact hc)
      rw [hid, hc, Option.some.injEq] at row
      subst row
      have hrow := cases c.id
      rw [if_pos rfl] at hrow
      -- Whoever has the case in hand has an older version than the row.
      have hinHand : (phase (History.own H t)).case? ≠ some c := fun hinHand =>
        absurd (hhand t c hinHand rfl) (lt_irrefl _)
      cases step with
      | turnedAway d known status => rw [hexecuting] at status; cases status
      | diagnosed d known status => rw [hexecuting] at status; exact absurd status (by decide)
      | claimed x idle known => exact absurd (hexecuting.symm.trans known.approved) (by simp)
      | withheld x reason now known => exact absurd (hexecuting.symm.trans known.approved) (by simp)
      | recorded _ attempt made link id completedAt correlationId now inHand =>
        exact absurd (CaseStep.case?_of_inHand inHand) hinHand
      | gaveUp _ attempt made category message reason correlationId completedAt now inHand =>
        exact absurd (CaseStep.case?_of_gaveUp inHand) hinHand
      | recovered d now now' known executing paid => exact .recovered d now now' rfl known paid rfl hrow
      | failed d attempt now now' known executing unpaid =>
        exact .failed d attempt now now' rfl known unpaid rfl hrow
  | _ => exact .waits hc hhand'

/-- The case has been asked to pay: it is over, or it is executing and no execution that
has it in hand can still write it. -/
def Awaiting (H : History) (caseId : Uuid) : Prop :=
  ∃ c, H.replay.recoveryCases.get? caseId = some c ∧
    (isTerminal c.status = true ∨ c.status = .executing ∧ NotInHand H c)

/-- A case stays so unless a delivery fails it. -/
theorem Awaiting.cons {caseId : Uuid} (ha : Awaiting H caseId) (h : Lawful ((t, e) :: H))
    (hfail : ∀ (d : Delivery) attempt now now', e = .committed (d.failStmts attempt now now') →
      d.Known (History.own H t) (History.replay H) →
      Settles d (d.failStmts attempt now now') → d.loaded.recoveryCase.id ≠ caseId) :
    Awaiting ((t, e) :: H) caseId := by
  obtain ⟨c, hc, hterminal | ⟨hexecuting, hhand⟩⟩ := ha
  · -- A terminal case stays terminal.
    exact ⟨c, h.terminal_cons hc hterminal, .inl hterminal⟩
  obtain rfl : c.id = caseId := Table.key_of_get? hc
  cases h.waitStep hc hexecuting hhand with
  | waits row notInHand => exact ⟨c, row, .inr ⟨hexecuting, notInHand⟩⟩
  | recovered d now now' eq known paid loaded row => exact ⟨d.recovered, row, .inl rfl⟩
  | failed d attempt now now' eq known unpaid loaded row =>
    subst loaded
    exact absurd rfl (hfail d attempt now now' eq known (.failed attempt now now' hexecuting unpaid))

/-- An execution that records its link finds its case as it had left it. -/
theorem Lawful.row_of_record {c : RecoveryCase} {attempt : RecoveryAttempt}
    {link : PaymentLinkSnapshot} {id : Uuid} {completedAt : Time} {correlationId : String}
    {now : Time} (h : Lawful H) (hinHand : (phase (H.own t)).case? = some c)
    (hchecked : Store.checkAll (recordStmts c attempt link id completedAt correlationId now)
      H.replay = none) :
    H.replay.recoveryCases.get? c.id = some c := by
  have hnil : ∀ st ∈ ([] : List Stmt), st.table ≠ .recoveryCases := by simp
  exact (h.caseSeen_of_inHand hinHand).of_checkAll hnil hchecked

/-- An execution that records its link leaves its case to the deliveries. -/
theorem Lawful.notInHand_of_record {c : RecoveryCase} {attempt : RecoveryAttempt}
    {link : PaymentLinkSnapshot} {id : Uuid} {completedAt : Time} {correlationId : String}
    {now : Time}
    (h : Lawful ((t, .committed (recordStmts c attempt link id completedAt correlationId now)) :: H))
    (hinHand : (phase (H.own t)).case? = some c) :
    H.replay.recoveryCases.get? c.id = some c ∧
      (History.replay ((t, .committed (recordStmts c attempt link id completedAt correlationId
        now)) :: H)).recoveryCases.get? c.id = some c.recorded ∧
      NotInHand ((t, .committed (recordStmts c attempt link id completedAt correlationId now)) :: H)
        c.recorded := by
  obtain ⟨hl, -, hchecked⟩ := h.cons_inv
  have hrow : H.replay.recoveryCases.get? c.id = some c :=
    hl.row_of_record hinHand (hchecked _ rfl)
  have hafter := turns_recordStmts c attempt link id completedAt correlationId now _ hrow c.id
  rw [if_pos rfl] at hafter
  have hexecuting : c.status = .executing := executing_of_phase hinHand
  refine ⟨hrow, hafter, fun u c' hc' hid => ?_⟩
  have hid : c'.id = c.id := hid
  rcases h.inHand_cons hc' with hc' | ⟨x, -, rfl, known, -, hrow'⟩
  · -- what is in hand is no newer than the row
    obtain ⟨row, hrow', hbecomes⟩ := hl.caseSeen_of_inHand hc'
    rw [hid, hrow, Option.some.injEq] at hrow'
    subst hrow'
    exact lt_of_le_of_lt hbecomes.version (Int.lt_succ _)
  · -- Nor is the case claimed now: it is executing already.
    have hid : x.recoveryCase.id = c.id := hid
    rw [hid, hrow, Option.some.injEq] at hrow'
    have happroved := known.approved
    rw [← hrow', hexecuting] at happroved
    cases happroved

/-- So the case waits for its deliveries. -/
theorem Lawful.awaiting_of_record {c : RecoveryCase} {attempt : RecoveryAttempt}
    {link : PaymentLinkSnapshot} {id : Uuid} {completedAt : Time} {correlationId : String}
    {now : Time}
    (h : Lawful ((t, .committed (recordStmts c attempt link id completedAt correlationId now)) :: H))
    (hinHand : (phase (H.own t)).case? = some c) :
    Awaiting ((t, .committed (recordStmts c attempt link id completedAt correlationId now)) :: H)
      c.id := by
  obtain ⟨-, hrow, hhand⟩ := h.notInHand_of_record hinHand
  have hexecuting : c.status = .executing := executing_of_phase hinHand
  exact ⟨c.recorded, hrow, .inr ⟨hexecuting, hhand⟩⟩

/-- A delivery that fails a case whose links it may not leave live leaves none. -/
theorem FailsAlone.ne {d : Delivery} {attempt : Option RecoveryAttempt} {now now' : Time}
    {l : RecoveryPaymentRequest}
    (h : Lawful ((t, .committed (d.failStmts attempt now now')) :: H))
    (hcond : FailsAlone H H.replay t (d.failStmts attempt now now'))
    (known : d.Known (H.own t) H.replay) (hs : Settles d (d.failStmts attempt now now'))
    (hl : l ∈ H.replay.recoveryPaymentRequests)
    (hafter : l ∈ (Store.applyAll (d.failStmts attempt now now') H.replay).recoveryPaymentRequests)
    (hlive : l.Live) : d.loaded.recoveryCase.id ≠ l.recoveryCaseId := by
  intro hcase
  -- the transaction updates the link, so it is the one the delivery is about
  have hupdate : (d.loaded.recoveryCase, { d.loaded.recoveryCase with status := .failed }) ∈
      (d.failStmts attempt now now').filterMap Stmt.caseUpdate? :=
    List.mem_filterMap.mpr ⟨_, List.mem_append_right _ (List.mem_append_left _ List.mem_cons_self),
      rfl⟩
  obtain ⟨st, hst, hu⟩ := hcond _ hupdate rfl l hl hcase.symm hlive
  have hid : d.link.id = l.id := hs.eq_of_updatesLink hst hu
  rw [hs.links] at hafter
  rcases Table.mem_update.mp hafter with ⟨-, hne⟩ | ⟨l₀, hl₀, hid₀, rfl⟩
  · -- An update that leaves the link as it was is one of another link.
    exact hne hid.symm
  · -- And one of this link makes it final.
    exact h.cons_inv.1.not_live_of_settles known hl₀ hid₀ hlive

/-- The live links of a record: their cases wait, and each case has one at most. -/
structure OneLive (H : History) : Prop where
  awaiting : ∀ l ∈ H.replay.recoveryPaymentRequests, l.Live → Awaiting H l.recoveryCaseId
  unique : ∀ l ∈ H.replay.recoveryPaymentRequests, ∀ l' ∈ H.replay.recoveryPaymentRequests,
    l.Live → l'.Live → l.recoveryCaseId = l'.recoveryCaseId → l = l'

/-- **Deliveries that fail a case fail it alone, so at most one of its links is live.** -/
theorem Extends.oneLive (h : Extends (CommitsMeet FailsAlone) [] H) : OneLive H := by
  induction h using Extends.induction with
  | refl => exact ⟨fun l hl => absurd hl List.not_mem_nil, fun l hl => absurd hl List.not_mem_nil⟩
  | @cons H t e before hlawful cond _ ih =>
    -- a case that has a live link before and after the event goes on waiting
    have hkeep : ∀ l ∈ H.replay.recoveryPaymentRequests,
        l ∈ (History.replay ((t, e) :: H)).recoveryPaymentRequests → l.Live →
        Awaiting ((t, e) :: H) l.recoveryCaseId := by
      intro l hl hafter hlive
      refine (ih.awaiting l hl hlive).cons hlawful fun d attempt now now' he known hs => ?_
      subst he
      exact FailsAlone.ne hlawful (cond _ rfl) known hs hl hafter hlive
    cases e with
    | committed sts =>
      refine ⟨fun l hl hlive => ?_, fun l hl l' hl' hlive hlive' hcase => ?_⟩
      · rcases hlawful.live_cons hl hlive with hold | ⟨c, attempt, link, id, completedAt,
          correlationId, now, rfl, hinHand, rfl⟩
        · -- live before
          exact hkeep l hold hl hlive
        · -- recorded by this commit
          exact hlawful.awaiting_of_record hinHand
      · -- a link that is recorded while the case waits would have been written by an
        -- execution that has the case in hand
        have hnot : ∀ {l₁ : RecoveryPaymentRequest} {c attempt link id completedAt correlationId now},
            l₁ ∈ H.replay.recoveryPaymentRequests → l₁.Live →
            sts = recordStmts c attempt link id completedAt correlationId now →
            (phase (H.own t)).case? = some c → l₁.recoveryCaseId ≠ c.id := by
          intro l₁ c attempt link id completedAt correlationId now hl₁ hlive₁ hsts hinHand hcase₁
          subst hsts
          obtain ⟨hrow, -⟩ := hlawful.notInHand_of_record hinHand
          obtain ⟨c', hc', hstate⟩ := ih.awaiting l₁ hl₁ hlive₁
          rw [hcase₁, hrow, Option.some.injEq] at hc'
          subst hc'
          rcases hstate with hterminal | ⟨-, hversions⟩
          · rw [executing_of_phase hinHand] at hterminal
            cases hterminal
          · exact absurd (hversions t c hinHand rfl) (lt_irrefl _)
        rcases hlawful.live_cons hl' hlive' with hold' | ⟨c, attempt, link, id, completedAt,
          correlationId, now, hsts, hinHand, rfl⟩
        · -- The second link is an old one.
          rcases hlawful.live_cons hl hlive with hold | ⟨c, attempt, link, id, completedAt,
            correlationId, now, hsts, hinHand, rfl⟩
          · exact ih.unique l hold l' hold' hlive hlive' hcase
          · exact absurd hcase.symm (hnot hold' hlive' hsts hinHand)
        · -- The second link is recorded now.
          have hl : l ∈ (Store.applyAll sts H.replay).recoveryPaymentRequests := hl
          rw [hsts, links_recordStmts, List.mem_append, List.mem_singleton] at hl
          rcases hl with hold | heq
          · exact absurd hcase (hnot hold hlive hsts hinHand)
          · exact heq
    | _ =>
      exact ⟨fun l hl hlive => hkeep l hl hl hlive, ih.unique⟩

/-- **A case has at most one live link, as long as a delivery that fails it leaves none.**
In a run in which every transaction that fails a case finds no live link of it but one
that it updates, no reachable state has two live links of one case. -/
theorem oneLiveLink_of_failsAlone {w : World}
    (h : machine.ReachesVia (OnCommit FailsAlone) World.empty w) :
    ∀ l ∈ w.shared.db.recoveryPaymentRequests, ∀ l' ∈ w.shared.db.recoveryPaymentRequests,
      l.Live → l'.Live → l.recoveryCaseId = l'.recoveryCaseId → l = l' := by
  have hext : Extends (CommitsMeet FailsAlone) [] w.shared.history :=
    extends_of_onCommit Machine.Reaches.refl h
  rw [Reachable.db_eq h.reaches]
  exact hext.oneLive.unique

namespace Sample

/-- The link expires, which fails the case; it is diagnosed and executed again. -/
def expired : List Action :=
  executed ++ alone 3 (.webhook (event "k" "L" "expired" none) "c") (deliver ++ settle) ++
    alone 4 (.diagnose 3 "c") (diagnose false .sendPaymentLink) ++
    alone 5 (.execute 3 "c") (execute 20 21 22 "M")

/-- The first link is cancelled as well, which fails the case with the second link live;
it is diagnosed and executed a third time. -/
def superseded : List Action :=
  expired ++ alone 6 (.webhook (event "k'" "L" "cancelled" none) "c") (deliver ++ settle) ++
    alone 7 (.diagnose 3 "c") (diagnose false .sendPaymentLink) ++
    alone 8 (.execute 3 "c") (execute 30 31 32 "N")

end Sample

set_option maxRecDepth 10000 in
/-- An expired link is followed by a live one, and that is the only one. -/
theorem oneLiveLink_of_failsAlone_expired :
    (World.empty.after Sample.expired).shared.db.recoveryPaymentRequests.length = 2 ∧
    ∀ l ∈ (World.empty.after Sample.expired).shared.db.recoveryPaymentRequests,
    ∀ l' ∈ (World.empty.after Sample.expired).shared.db.recoveryPaymentRequests,
      l.Live → l'.Live → l.recoveryCaseId = l'.recoveryCaseId → l = l' :=
  ⟨by decide +kernel, oneLiveLink_of_failsAlone (World.reachesVia_after (by decide +kernel))⟩

set_option maxRecDepth 10000 in
/-- Two links of one case can both be paid. -/
theorem superseded_twoLiveLinks : Reachable (World.empty.after Sample.superseded) ∧
    ∃ l ∈ (World.empty.after Sample.superseded).shared.db.recoveryPaymentRequests,
    ∃ l' ∈ (World.empty.after Sample.superseded).shared.db.recoveryPaymentRequests,
      l.status = .created ∧ l'.status = .created ∧ l.recoveryCaseId = l'.recoveryCaseId ∧ l ≠ l' :=
  ⟨World.reachable_after _, by decide +kernel⟩

end RecoverAI
