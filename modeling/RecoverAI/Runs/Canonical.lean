import RecoverAI.Runs.Attempts
import RecoverAI.Runs.Revenue

/-!
# Whose amount a link has

An execution asks the provider for the amount of the payment, but what it records is the
snapshot it gets back: of the call, or of the search after an ambiguous answer. A link has
therefore the amount of the payment exactly if the provider echoes it (`recorded_links`),
and a recovered case has what its link asks for, which is then the amount of the payment.
-/

namespace RecoverAI

open Interleave

variable {H : History} {t u : Tid} {e : Event} {sts : List Stmt} {c : RecoveryCase}
  {a : RecoveryAttempt} {request : CreatePaymentLinkRequest} {snapshot : PaymentLinkSnapshot}
  {payment : Payment}

/-! ### Requests and snapshots -/

/-- The request of the last call of the provider. -/
def lastRequest : List Event → Option CreatePaymentLinkRequest
  | [] => none
  | .created _ request _ _ :: _ => some request
  | _ :: h => lastRequest h

/-- Any other event is no call. -/
theorem lastRequest_cons {h : List Event}
    (he : ∀ caseId request made answer, e ≠ .created caseId request made answer) :
    lastRequest (e :: h) = lastRequest h := by
  cases e with
  | created caseId request made answer => exact absurd rfl (he caseId request made answer)
  | _ => rfl

/-- The snapshot was returned for the request: by the call, or by the search after it. -/
inductive Returned (h : List Event) (request : CreatePaymentLinkRequest)
    (snapshot : PaymentLinkSnapshot) : Prop where
  | created (caseId : Uuid) (made : Option PaymentLinkSnapshot)
      (mem : .created caseId request made (.ok snapshot) ∈ h)
  | found (newer older : List Event) (reference : String)
      (split : h = newer ++ .found reference (.ok (some snapshot)) :: older)
      (call : lastRequest older = some request)

/-- What was returned stays returned. -/
theorem Returned.cons {h : List Event} (hr : Returned h request snapshot) (e : Event) :
    Returned (e :: h) request snapshot := by
  cases hr with
  | created caseId made mem => exact .created caseId made (List.mem_cons_of_mem _ mem)
  | found newer older reference split call =>
    exact .found (e :: newer) older reference (by rw [split]; rfl) call

/-- In the record of all operations, the other ones do not matter. -/
theorem Returned.history_cons (hr : Returned (H.own u) request snapshot) :
    Returned (History.own ((t, e) :: H) u) request snapshot := by
  -- Only an event of the operation itself adds to what it has got back.
  by_cases hu : u = t
  · subst hu
    rw [History.own_cons_self]
    exact hr.cons e
  · rw [History.own_cons_ne hu]
    exact hr

namespace Phase

/-- The case and the attempt of an execution that has called the provider. -/
def asked? : Phase → Option (RecoveryCase × RecoveryAttempt)
  | .called c a _ _ => some (c, a)
  | .searched c a _ _ => some (c, a)
  | .reconciled c a _ _ => some (c, a)
  | _ => none

/-- The snapshot it has got. -/
def snapshot? : Phase → Option PaymentLinkSnapshot
  | .called _ _ _ (.ok link) => some link
  | .searched _ _ _ (.ok link) => link
  | .reconciled _ _ _ (.ok link) => link
  | _ => none

variable {p : Phase}

/-- An execution that has called the provider has its case and its attempt in hand. -/
theorem hand?_of_asked? (h : p.asked? = some (c, a)) : p.hand? = some (c, a) := by
  cases p <;> cases h <;> rfl

/-- One that is about to record a link has called the provider and has a snapshot. -/
theorem asked?_of_inHand {made : Option PaymentLinkSnapshot}
    (h : p = .called c a made (.ok snapshot) ∨ p = .reconciled c a made (.ok (some snapshot))) :
    p.asked? = some (c, a) ∧ p.snapshot? = some snapshot := by
  rcases h with rfl | rfl <;> exact ⟨rfl, rfl⟩

/-- An execution has called the provider before, or just now. -/
theorem asked?_next (h : (p.next e).asked? = some (c, a)) :
    p.asked? = some (c, a) ∨ p = .attempted c a ∧
      ∃ caseId request made answer, e = .created caseId request made answer := by
  rcases of_next asked? rfl h with h | ⟨sts, rfl⟩ |
    ⟨_, _, caseId, request, made, answer, rfl, rfl, hasked⟩ | ⟨_, _, _, _, _, _, rfl, -, hasked⟩
  · exact .inl h
  · -- A commit takes an execution from one phase to the next, and no further than the attempt.
    cases p with
    | idle =>
      simp only [next] at h
      split at h <;> cases h
    | claimed c' =>
      simp only [next] at h
      split at h <;> cases h
    | searched c' a' made found => exact .inl h
    | _ => cases h
  · -- the call
    cases hasked
    exact .inr ⟨rfl, caseId, request, made, answer, rfl⟩
  · -- the search
    exact .inl hasked

/-- And got its snapshot before, or just now. -/
theorem snapshot?_next (h : (p.next e).snapshot? = some snapshot) :
    p.snapshot? = some snapshot ∨
      (∃ caseId request made, e = .created caseId request made (.ok snapshot)) ∨
      ∃ reference, e = .found reference (.ok (some snapshot)) := by
  rcases of_next snapshot? rfl h with h | ⟨sts, rfl⟩ |
    ⟨_, _, caseId, request, made, answer, rfl, rfl, hanswer⟩ |
    ⟨_, _, _, _, reference, found, rfl, rfl, hfound⟩
  · exact .inl h
  · -- A commit brings no snapshot.
    cases p with
    | idle =>
      simp only [next] at h
      split at h <;> cases h
    | claimed c' =>
      simp only [next] at h
      split at h <;> cases h
    | searched c' a' made found => cases found <;> exact .inl h
    | _ => cases h
  · -- The call brings one if it was answered with a link.
    cases answer with
    | ok link =>
      cases hanswer
      exact .inr (.inl ⟨caseId, request, made, rfl⟩)
    | error e => cases hanswer
  · -- So does the search.
    cases found with
    | ok link =>
      cases hfound
      exact .inr (.inr ⟨reference, rfl⟩)
    | error e => cases hfound

end Phase

/-! ### What an execution has asked for -/

/-- The row just inserted is there. -/
theorem Db.AttemptSeen.of_insert {db : Db} (hmem : .insertAttempt a ∈ sts)
    (hc : Store.checkAll sts db = none) : (Store.applyAll sts db).AttemptSeen a := by
  obtain ⟨pre, post, rfl⟩ := List.append_of_mem hmem
  rw [Store.checkAll_append, Option.or_eq_none_iff] at hc
  rw [Store.applyAll_append, Store.applyAll_cons]
  generalize Store.applyAll pre db = db' at hc
  obtain ⟨hfree, hpost⟩ := Store.checkAll_cons_eq_none.mp hc.2
  -- the check of the insert says that the id was free
  have hfree := (Bool.or_eq_false_iff.mp (Stmt.eq_false_of_unlessTaken hfree)).1
  rw [Option.isSome_eq_false_iff, Option.isNone_iff_eq_none] at hfree
  have hrow : Table.get? (db'.recoveryAttempts ++ [a]) a.id = some a := by
    rw [Table.get?_append, hfree, Option.none_or, Table.get?_singleton]
    exact if_pos rfl
  exact Db.AttemptSeen.evolves (.of_get? hrow) (.applyAll hpost)

/-- An attempt in hand was committed. -/
theorem Lawful.attemptSeen_of_hand (h : Lawful H) (hc : (phase (H.own u)).hand? = some (c, a)) :
    H.replay.AttemptSeen a := by
  induction h with
  | refl => cases hc
  | @cons H t e before permitted checked _ ih =>
    have hlawful : Lawful ((t, e) :: H) := .cons before permitted checked trivial
    -- The attempt is inserted by this commit.
    rcases hand?_cons hc with hc | ⟨-, -, sts, rfl, hinsert⟩
    · exact (ih hc).evolves hlawful.evolves_cons
    · obtain ⟨st, hst, he⟩ := List.exists_of_findSome?_eq_some hinsert
      cases st with
      | insertAttempt row =>
        cases he
        rw [History.replay_cons, Event.applyTo_committed]
        exact .of_insert hst (checked sts rfl)
      | _ => cases he

/-- The execution of the case has asked for its payment, under the key of the attempt. -/
structure Asked (H : History) (u : Tid) (c : RecoveryCase) (a : RecoveryAttempt)
    (request : CreatePaymentLinkRequest) (payment : Payment) : Prop where
  last : lastRequest (H.own u) = some request
  paymentSeen : H.replay.PaymentSeen payment
  paymentId : payment.id = c.paymentId
  amount : request.amount = payment.amount
  currency : request.currency = payment.currency
  reference : a.idempotencyKey = some request.referenceId

/-- **What an execution that has called the provider has asked for.** -/
theorem Lawful.asked (h : Lawful H) (hc : (phase (H.own u)).asked? = some (c, a)) :
    ∃ request payment, Asked H u c a request payment := by
  induction h with
  | refl => cases hc
  | @cons H t e before permitted checked _ ih =>
    have hlawful : Lawful ((t, e) :: H) := .cons before permitted checked trivial
    -- What was asked for stays, as long as the last call is the same.
    have hkept : ∀ {request payment}, Asked H u c a request payment →
        lastRequest (History.own ((t, e) :: H) u) = some request →
        Asked ((t, e) :: H) u c a request payment := fun hasked hlast =>
      { hasked with
        last := hlast
        paymentSeen := hasked.paymentSeen.evolves hlawful.evolves_cons }
    -- an event of another operation
    by_cases hu : u = t
    case neg =>
      rw [History.own_cons_ne hu] at hc
      obtain ⟨request, payment, hasked⟩ := ih hc
      refine ⟨request, payment, hkept hasked ?_⟩
      rw [History.own_cons_ne hu]
      exact hasked.last
    subst hu
    rw [History.own_cons_self, phase_cons] at hc
    rcases Phase.asked?_next hc with hold | ⟨hattempted, caseId, request, made, answer, rfl⟩
    · obtain ⟨request, payment, hasked⟩ := ih hold
      refine ⟨request, payment, hkept hasked ?_⟩
      rw [History.own_cons_self, lastRequest_cons, hasked.last]
      -- a call is made with an attempt that has not been used
      rintro caseId request made answer rfl
      obtain ⟨-, x, attempt, hcalled⟩ := permitted
      rw [hcalled.attempted] at hold
      cases hold
    · -- The call is made now, and the rules say what it asks for.
      obtain ⟨-, x, attempt, hcalled⟩ := permitted
      rw [hcalled.attempted, Phase.attempted.injEq] at hattempted
      obtain ⟨rfl, rfl⟩ := hattempted
      refine ⟨request, x.payment, ?_, hcalled.known.paymentSeen.evolves hlawful.evolves_cons,
        hcalled.known.paymentId, hcalled.amount, hcalled.currency, hcalled.reference⟩
      rw [History.own_cons_self]
      rfl

/-- **Where its snapshot comes from.** -/
theorem Lawful.returned (h : Lawful H) (hs : (phase (H.own u)).snapshot? = some snapshot)
    (hr : lastRequest (H.own u) = some request) : Returned (H.own u) request snapshot := by
  induction h with
  | refl => cases hs
  | @cons H t e before permitted checked _ ih =>
    -- an event of another operation
    by_cases hu : u = t
    case neg =>
      rw [History.own_cons_ne hu] at hs hr ⊢
      exact ih hs hr
    subst hu
    rw [History.own_cons_self] at hs hr ⊢
    rw [phase_cons] at hs
    rcases Phase.snapshot?_next hs with hold | ⟨caseId, request', made, rfl⟩ | ⟨reference, rfl⟩
    · -- It had the snapshot, and makes no second call.
      rw [lastRequest_cons] at hr
      · exact (ih hold hr).cons e
      · rintro caseId request made answer rfl
        obtain ⟨-, x, attempt, hcalled⟩ := permitted
        rw [hcalled.attempted] at hold
        cases hold
    · -- The call brings it.
      cases hr
      exact .created caseId made List.mem_cons_self
    · -- The search brings it, after the last call.
      exact .found [] _ reference rfl hr

/-! ### What is recorded -/

/-- **Where a link comes from.** The snapshot was returned for a request that asks for the
payment of the case, under the key of the attempt; and the link is a copy of it. -/
structure RecordedFrom (H : History) (l : RecoveryPaymentRequest)
    (request : CreatePaymentLinkRequest) (snapshot : PaymentLinkSnapshot) (payment : Payment) :
    Prop where
  returned : ∃ t, Returned (H.own t) request snapshot
  paymentSeen : H.replay.PaymentSeen payment
  recoveryCase : ∃ c, H.replay.recoveryCases.get? l.recoveryCaseId = some c ∧
    c.paymentId = payment.id
  attempt : ∃ a, H.replay.recoveryAttempts.get? l.recoveryAttemptId = some a ∧
    a.idempotencyKey = some request.referenceId
  requested : request.amount = payment.amount ∧ request.currency = payment.currency
  amount : l.amount = snapshot.amount
  currency : l.currency = snapshot.currency
  reference : l.referenceId = (truthy snapshot.referenceId).getD request.referenceId

namespace RecordedFrom

variable {l l' : RecoveryPaymentRequest}

/-- What a link was recorded from stays so with one more event. -/
theorem cons (h : RecordedFrom H l request snapshot payment) (hl : Lawful ((t, e) :: H)) :
    RecordedFrom ((t, e) :: H) l request snapshot payment where
  returned := h.returned.imp fun _ => Returned.history_cons
  paymentSeen := h.paymentSeen.evolves hl.evolves_cons
  recoveryCase := by
    obtain ⟨c, hc, hid⟩ := h.recoveryCase
    obtain ⟨c', hc', hbecomes⟩ := hl.evolves_cons.recoveryCase _ _ hc
    exact ⟨c', hc', hbecomes.paymentId.trans hid⟩
  attempt := by
    obtain ⟨a, ha, hkey⟩ := h.attempt
    obtain ⟨a', ha', hbecomes⟩ := hl.evolves_cons.attempt _ _ ha
    exact ⟨a', ha', hbecomes.idempotencyKey.trans hkey⟩
  requested := h.requested
  amount := h.amount
  currency := h.currency
  reference := h.reference

/-- A delivery changes nothing of this. -/
theorem write (h : RecordedFrom H l request snapshot payment)
    (before after : RecoveryPaymentRequest) :
    RecordedFrom H (before.write after l) request snapshot payment := { h with }

/-- The record of a link. -/
theorem of_record {made : Option PaymentLinkSnapshot} {id : Uuid} (hl : Lawful ((t, e) :: H))
    (h : phase (H.own t) = .called c a made (.ok snapshot) ∨
      phase (H.own t) = .reconciled c a made (.ok (some snapshot))) :
    ∃ request payment,
      RecordedFrom ((t, e) :: H) (paymentRequestOf id c a snapshot) request snapshot payment := by
  have hbefore := hl.cons_inv.1
  obtain ⟨hasked, hsnapshot⟩ := Phase.asked?_of_inHand h
  obtain ⟨request, payment, hask⟩ := hbefore.asked hasked
  have hhand := Phase.hand?_of_asked? hasked
  obtain ⟨row, hrow, hcase⟩ := hbefore.caseSeen_of_inHand (Phase.case?_of_hand? hhand)
  obtain ⟨row', hrow', hattempt⟩ := hbefore.attemptSeen_of_hand hhand
  -- The attempt has the key it was called with, so an empty reference is replaced by that.
  have hkey : (truthy a.idempotencyKey).getD "" = request.referenceId := by
    rw [hask.reference, getD_truthy, Option.getD_some]
  have hrecorded : RecordedFrom H (paymentRequestOf id c a snapshot) request snapshot payment :=
    { returned := ⟨t, hbefore.returned hsnapshot hask.last⟩
      paymentSeen := hask.paymentSeen
      recoveryCase := ⟨row, hrow, hcase.paymentId.trans hask.paymentId.symm⟩
      attempt := ⟨row', hrow', hattempt.idempotencyKey.trans hask.reference⟩
      requested := ⟨hask.amount, hask.currency⟩
      amount := rfl
      currency := rfl
      reference := by
        change (truthy snapshot.referenceId).getD ((truthy a.idempotencyKey).getD "") = _
        rw [hkey] }
  exact ⟨request, payment, hrecorded.cons hl⟩

end RecordedFrom

/-- **Every link of a lawful record was recorded so.** -/
theorem Lawful.recordedFrom (h : Lawful H) : ∀ l ∈ H.replay.recoveryPaymentRequests,
    ∃ request snapshot payment, RecordedFrom H l request snapshot payment := by
  induction h using Lawful.induction with
  | refl => exact fun l hl => absurd hl List.not_mem_nil
  | @cons H t e before hlawful ih =>
    intro l hl
    cases e with
    | committed sts =>
      rcases hlawful.linkEffect.mem hl with
        ⟨c, a, made, link, id, completedAt, correlationId, now, -, hinHand, rfl⟩ |
        ⟨l₀, hl₀, -, -, hsame⟩
      · -- the link that is recorded
        obtain ⟨request, payment, hrecorded⟩ := RecordedFrom.of_record hlawful hinHand
        exact ⟨request, link, payment, hrecorded⟩
      · obtain ⟨request, snapshot, payment, hrecorded⟩ := ih l₀ hl₀
        -- untouched, or observed: neither changes its terms
        rcases hsame with rfl | ⟨d, -, -, -, rfl⟩
        · exact ⟨request, snapshot, payment, hrecorded.cons hlawful⟩
        · exact ⟨request, snapshot, payment, (hrecorded.write _ _).cons hlawful⟩
    | _ =>
      obtain ⟨request, snapshot, payment, hrecorded⟩ := ih l hl
      exact ⟨request, snapshot, payment, hrecorded.cons hlawful⟩

/-- A recovered case has been paid what one of its links asks for. -/
def Covered (H : History) (c : RecoveryCase) : Prop :=
  ∃ l, H.replay.LinkSeen l ∧ l.recoveryCaseId = c.id ∧ l.amount ≤ c.recoveredAmount

/-- What was paid for a case stays paid. -/
theorem Covered.cons (h : Covered H c) (hl : Lawful ((t, e) :: H)) : Covered ((t, e) :: H) c := by
  obtain ⟨l, hseen, hrest⟩ := h
  exact ⟨l, hseen.evolves hl.evolves_cons, hrest⟩

/-- **A recovered case is covered**, by the moves of cases. -/
theorem Lawful.covered (h : Lawful H) : ∀ id c, H.replay.recoveryCases.get? id = some c →
    c.status = .recovered → Covered H c := by
  refine h.case_invariant (I := fun H c => c.status = .recovered → Covered H c)
    (fun H t e c hl hi hs => (hi hs).cons hl) (fun H payment id createdAt _ _ _ hs => by cases hs)
    fun H t sts c c' hl _ hstep hrow hi hs => ?_
  cases hstep with
  | recovered d now now' known executing paid =>
    -- Nothing has been recovered of an executing case yet.
    have hzero : d.loaded.recoveryCase.recoveredAmount = 0 :=
      (hl.cons_inv.1.caseInv hrow).unrecovered (by rw [executing]; simp)
    refine ⟨d.link, known.linkSeen.evolves hl.evolves_cons, known.caseId.symm, ?_⟩
    change d.link.amount ≤ d.loaded.recoveryCase.recoveredAmount + d.observed.amountPaid
    rw [hzero, Int.zero_add]
    exact paid.2
  -- A diagnosis leaves the case approved or terminal, but not recovered.
  | diagnosed d =>
    rw [d.after_status] at hs
    rcases d.next_mem with h | h | h <;> rw [h] at hs <;> cases hs
  -- A record leaves the case executing.
  | recorded c attempt made link id completedAt correlationId now inHand =>
    have hc := executing_of_phase (CaseStep.case?_of_inHand inHand)
    exact absurd (hc.symm.trans hs) (by simp)
  | _ => cases hs

/-- The snapshot is one of what was asked for. -/
structure Echoes (request : CreatePaymentLinkRequest) (snapshot : PaymentLinkSnapshot) : Prop where
  amount : snapshot.amount = request.amount
  currency : snapshot.currency = request.currency
  reference : truthy snapshot.referenceId = none ∨ snapshot.referenceId = some request.referenceId

/-- The link has the amount, the currency and the key of the payment and the attempt it is
for. -/
structure RecoveryPaymentRequest.Canonical (l : RecoveryPaymentRequest)
    (request : CreatePaymentLinkRequest) (payment : Payment) : Prop where
  amount : l.amount = payment.amount
  currency : l.currency = payment.currency
  reference : l.referenceId = request.referenceId

/-- A link is canonical if and only if the snapshot echoes the request. -/
theorem RecordedFrom.canonical_iff {l : RecoveryPaymentRequest}
    (h : RecordedFrom H l request snapshot payment) :
    l.Canonical request payment ↔ Echoes request snapshot := by
  have href : (truthy snapshot.referenceId).getD request.referenceId = request.referenceId ↔
      truthy snapshot.referenceId = none ∨ snapshot.referenceId = some request.referenceId := by
    -- Either the provider returns no reference, or one that is kept.
    cases ht : truthy snapshot.referenceId with
    | none => simp
    | some reference =>
      have hs := (truthy_eq_some_iff.mp ht).1
      simp [hs]
  constructor
  · -- the columns of the link are those of the payment, and so are those of the request
    intro hc
    exact ⟨h.amount.symm.trans (hc.amount.trans h.requested.1.symm),
      h.currency.symm.trans (hc.currency.trans h.requested.2.symm),
      href.mp (h.reference.symm.trans hc.reference)⟩
  · intro he
    exact ⟨h.amount.trans (he.amount.trans h.requested.1),
      h.currency.trans (he.currency.trans h.requested.2), h.reference.trans (href.mpr he.reference)⟩

/-- **The provider's answer governs the link**, for whatever it answers: a link is a copy of
the snapshot that was returned for a request of the payment, so it is canonical exactly if
the snapshot echoes the request. A recovered case has been paid what one of its links asks
for; where the provider echoes amounts, this is the amount of the payment. -/
theorem recorded_links {w : World} (hw : Reachable w) :
    (∀ l ∈ w.shared.db.recoveryPaymentRequests, ∃ request snapshot payment,
      RecordedFrom w.shared.history l request snapshot payment ∧
        (l.Canonical request payment ↔ Echoes request snapshot)) ∧
    ∀ c ∈ w.shared.db.recoveryCases, c.status = .recovered →
      ∃ l ∈ w.shared.db.recoveryPaymentRequests, l.recoveryCaseId = c.id ∧
        l.amount ≤ c.recoveredAmount ∧
        ((∀ t request snapshot, Returned (w.shared.own t) request snapshot →
          snapshot.amount = request.amount) →
          ∀ p, w.shared.db.payments.get? c.paymentId = some p → p.amount ≤ c.recoveredAmount) := by
  have hl := Reachable.lawful hw
  rw [Reachable.db_eq hw]
  refine ⟨fun l hmem => ?_, fun c hc hs => ?_⟩
  · obtain ⟨request, snapshot, payment, hrecorded⟩ := hl.recordedFrom l hmem
    exact ⟨request, snapshot, payment, hrecorded, hrecorded.canonical_iff⟩
  · have hrow := hl.distinct.caseId.get?_of_mem hc
    obtain ⟨l₀, ⟨l, hget, hbecomes⟩, hcase, hle⟩ := hl.covered _ c hrow hs
    rw [← hbecomes.recoveryCaseId] at hcase
    rw [← hbecomes.amount] at hle
    have hmem := Table.mem_of_get? hget
    refine ⟨l, hmem, hcase, hle, fun hechoes p hp => ?_⟩
    obtain ⟨request, snapshot, payment, hrecorded⟩ := hl.recordedFrom l hmem
    obtain ⟨u, hreturned⟩ := hrecorded.returned
    -- the case of the link is the case, and its payment the payment
    obtain ⟨c', hc', hid⟩ := hrecorded.recoveryCase
    rw [hcase] at hc'
    obtain rfl := Option.some.inj (hrow.symm.trans hc')
    have hpayment := hrecorded.paymentSeen
    rw [Db.PaymentSeen, ← hid, hp] at hpayment
    obtain rfl := Option.some.inj hpayment
    rw [← hrecorded.requested.1, ← hechoes u request snapshot hreturned, ← hrecorded.amount]
    exact hle

set_option maxRecDepth 10000 in
/-- The case that is recovered with 500 has such a link. -/
theorem recorded_links_paid :
    ∃ c ∈ (World.empty.after Sample.paid).shared.db.recoveryCases, c.recoveredAmount = 500 ∧
      ∃ l ∈ (World.empty.after Sample.paid).shared.db.recoveryPaymentRequests,
        l.recoveryCaseId = c.id ∧ l.amount ≤ c.recoveredAmount ∧
        ∃ request snapshot payment,
          RecordedFrom (World.empty.after Sample.paid).shared.history l request snapshot payment := by
  -- The case of the run is recovered with 500.
  have hcase : ∃ c ∈ (World.empty.after Sample.paid).shared.db.recoveryCases,
      c.recoveredAmount = 500 ∧ c.status = .recovered := by decide +kernel
  obtain ⟨c, hc, hamount, hrecovered⟩ := hcase
  obtain ⟨hlinks, hcases⟩ := recorded_links (World.reachable_after Sample.paid)
  obtain ⟨l, hl, hid, hle, -⟩ := hcases c hc hrecovered
  obtain ⟨request, snapshot, payment, hrecorded, -⟩ := hlinks l hl
  exact ⟨c, hc, hamount, l, hl, hid, hle, request, snapshot, payment, hrecorded⟩

namespace Sample

/-- A snapshot of another amount, currency and reference than was asked for. -/
def otherLink : PaymentLinkSnapshot :=
  { link "L" with amount := 100, currency := "USD", referenceId := some "other" }

/-- The provider answers with it, and it is paid in full. -/
def otherPaid : List Action :=
  approved ++ alone 2 (.execute 3 "c")
      (claim ++ attempt 10 11 ++ [.time 0, .created (some otherLink) (.ok otherLink)] ++ record 12) ++
    alone 3 (.webhook (event "k" "L" "paid" (some 100)) "c") (deliver ++ settle)

end Sample

set_option maxRecDepth 10000 in
/-- The link has neither the amount nor the currency of the payment, nor the key of its
attempt, and the case is recovered with less than the amount of the payment. -/
theorem otherPaid_recovered : Reachable (World.empty.after Sample.otherPaid) ∧
    ∃ l ∈ (World.empty.after Sample.otherPaid).shared.db.recoveryPaymentRequests,
    ∃ a ∈ (World.empty.after Sample.otherPaid).shared.db.recoveryAttempts,
    ∃ c ∈ (World.empty.after Sample.otherPaid).shared.db.recoveryCases,
    ∃ p ∈ (World.empty.after Sample.otherPaid).shared.db.payments,
      l.recoveryAttemptId = a.id ∧ l.recoveryCaseId = c.id ∧ c.paymentId = p.id ∧
      l.amount ≠ p.amount ∧ l.currency ≠ p.currency ∧ some l.referenceId ≠ a.idempotencyKey ∧
      a.status = .succeeded ∧ c.status = .recovered ∧ c.recoveredAmount < p.amount :=
  ⟨World.reachable_after _, by decide +kernel⟩

end RecoverAI
