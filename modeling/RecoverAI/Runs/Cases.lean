import RecoverAI.Runs.History

/-!
# The cases of a run

`Extends.case_invariant` is the rule by which a property of the committed recovery
cases is proved: it has to hold of a case as it is opened, to survive what happens
elsewhere, and to be preserved by the eight moves of `CaseStep`. Its first use is
`CaseInv`, what a committed case is like in each status.
-/

namespace RecoverAI

open Interleave

/-! ### The case in hand -/

/-- An execution gets its case in hand by claiming it, and keeps it. -/
theorem Phase.case?_next {p : Phase} {e : Event} {c : RecoveryCase}
    (h : (p.next e).case? = some c) :
    p.case? = some c ∨ (p = .idle ∧ ∃ sts, e = .committed sts ∧ claimOf sts = some c) := by
  rcases of_next case? rfl h with h | ⟨sts, rfl⟩ |
    ⟨_, _, _, _, _, _, rfl, -, h⟩ | ⟨_, _, _, _, _, _, rfl, -, h⟩
  · exact .inl h
  · -- A commit puts a case in hand if it is a claim of an idle execution.
    cases p with
    | idle =>
      refine .inr ⟨rfl, sts, rfl, ?_⟩
      simp only [next] at h
      split at h
      · next c' he => rw [he]; exact h
      · cases h
    | claimed c' =>
      simp only [next] at h
      split at h
      · exact .inl h
      · cases h
    | searched c' a made found => exact .inl h
    | _ => cases h
  · -- The call and the search keep it.
    exact .inl h
  · exact .inl h

/-- What is claimed is executing. -/
theorem executing_of_claimOf {sts : List Stmt} {c : RecoveryCase} (h : claimOf sts = some c) :
    c.status = .executing := by
  unfold claimOf at h
  -- What a transaction claims is the case after its update, and it is executing.
  split at h
  · split at h
    · next hs => cases h; exact hs.2
    · cases h
  · cases h

/-- The case in hand is executing. -/
theorem executing_of_phase {h : List Event} {c : RecoveryCase} (hc : (phase h).case? = some c) :
    c.status = .executing := by
  induction h with
  | nil => cases hc
  | cons e h ih =>
    -- It was in hand before, or is claimed now.
    rcases Phase.case?_next hc with hc | ⟨-, sts, -, hclaim⟩
    · exact ih hc
    · exact executing_of_claimOf hclaim

/-! ### The moves -/

/-- Where a diagnosis leaves its case. -/
theorem Diagnosis.next_mem (d : Diagnosis) :
    d.next.1 = .approved ∨ d.next.1 = .stopped ∨ d.next.1 = .escalated := by
  -- An allowed action is approved or not executable, and a blocked one is escalated or stopped.
  unfold next resolveNextStatus
  cases d.decision.decision <;> simp only <;> split_ifs <;> simp

/-- What an approving diagnosis has decided. -/
theorem Diagnosis.approved_iff {d : Diagnosis} : d.next.1 = .approved ↔
    d.decision.decision = .allow ∧ d.outcome.recommendation.recommendedAction = .sendPaymentLink := by
  unfold next resolveNextStatus
  cases d.decision.decision <;>
    cases d.outcome.recommendation.recommendedAction <;> simp [EXECUTABLE_ACTIONS]
  all_goals split_ifs <;> simp

/-- The policy has allowed what an approving diagnosis recommends. -/
theorem Diagnosis.amount_pos {d : Diagnosis} (h : d.next.1 = .approved) : 0 < d.payment.amount := by
  obtain ⟨hallow, haction⟩ := approved_iff.mp h
  -- A positive amount is one of the conditions of the policy.
  exact ((evaluatePolicy_sendPaymentLink_iff haction).mp hallow).2.2.2.1

namespace CaseStep

variable {h : List Event} {db : Db} {sts : List Stmt} {c c' : RecoveryCase}

/-- An execution that has got a link has the case in hand. -/
theorem case?_of_inHand {attempt : RecoveryAttempt} {made : Option PaymentLinkSnapshot}
    {link : PaymentLinkSnapshot}
    (hp : phase h = .called c attempt made (.ok link) ∨
      phase h = .reconciled c attempt made (.ok (some link))) : (phase h).case? = some c := by
  rcases hp with hp | hp <;> rw [hp] <;> rfl

/-- So has one that is about to give up. -/
theorem case?_of_gaveUp {attempt : RecoveryAttempt} {made : Option PaymentLinkSnapshot}
    (hp : (∃ e, phase h = .called c attempt made (.error (.paymentProvider e)) ∧
        e.kind ≠ .ambiguous) ∨
      (∃ found, phase h = .reconciled c attempt made found ∧ ∀ link, found ≠ .ok (some link))) :
    (phase h).case? = some c := by
  rcases hp with ⟨e, hp, -⟩ | ⟨found, hp, -⟩ <;> rw [hp] <;> rfl

/-- No move changes the payment of a case. -/
theorem paymentId (hs : CaseStep h db sts c c') : c'.paymentId = c.paymentId := by
  cases hs <;> first | rfl | exact Diagnosis.after_paymentId _

/-- Nor how often its customer was contacted. -/
theorem customerContactCount (hs : CaseStep h db sts c c') :
    c'.customerContactCount = c.customerContactCount := by
  cases hs <;> first | rfl | exact Diagnosis.after_customerContactCount _

/-- Every move raises the version. -/
theorem version_lt (hs : CaseStep h db sts c c') : c.version < c'.version := by
  cases hs with
  | diagnosed d => exact d.before_version_lt
  | withheld x => exact (Int.lt_succ _).trans (Int.lt_succ _)
  | _ => exact Int.lt_succ _

/-- **The moves in terms of the status.** -/
theorem status (hs : CaseStep h db sts c c') :
    (c.status = .discovered ∧ c'.status = .ineligible) ∨
    (c.status ∈ diagnosableStatuses ∧
      (c'.status = .approved ∨ c'.status = .stopped ∨ c'.status = .escalated)) ∨
    (c.status = .approved ∧ (c'.status = .executing ∨ c'.status = .escalated)) ∨
    (c.status = .executing ∧ (c'.status = .executing ∨ c'.status = .escalated ∨
      c'.status = .recovered ∨ c'.status = .failed)) := by
  cases hs with
  | turnedAway d known status => exact .inl ⟨status, rfl⟩
  | diagnosed d known status => exact .inr (.inl ⟨status, d.next_mem⟩)
  | claimed x idle known => exact .inr (.inr (.inl ⟨known.approved, .inl rfl⟩))
  | withheld x reason t known => exact .inr (.inr (.inl ⟨known.approved, .inr rfl⟩))
  -- The record of a link leaves its case executing.
  | recorded c attempt made link id completedAt correlationId t inHand =>
    have hc := executing_of_phase (case?_of_inHand inHand)
    exact .inr (.inr (.inr ⟨hc, .inl hc⟩))
  | gaveUp c attempt made category message reason correlationId completedAt t inHand =>
    have hc := executing_of_phase (case?_of_gaveUp inHand)
    exact .inr (.inr (.inr ⟨hc, .inr (.inl rfl)⟩))
  | recovered d t t' known executing =>
    exact .inr (.inr (.inr ⟨executing, .inr (.inr (.inl rfl))⟩))
  | failed d attempt t t' known executing =>
    exact .inr (.inr (.inr ⟨executing, .inr (.inr (.inr rfl))⟩))

/-- A terminal case does not move. -/
theorem not_isTerminal (hs : CaseStep h db sts c c') : isTerminal c.status = false := by
  -- In none of the four cases is the first status terminal.
  rcases hs.status with ⟨hc, -⟩ | ⟨hc, -⟩ | ⟨hc, -⟩ | ⟨hc, -⟩
  · rw [hc]; rfl
  · revert hc
    cases c.status <;> decide
  · rw [hc]; rfl
  · rw [hc]; rfl

end CaseStep

/-! ### Invariants of cases -/

/-- A row of a longer table is an old row or a new one. -/
theorem get?_append_cases {rows rows' : Table RecoveryCase} {id : Uuid} {c : RecoveryCase}
    (h : Table.get? (rows ++ rows') id = some c) : rows.get? id = some c ∨ c ∈ rows' := by
  rw [Table.get?_append] at h
  -- A row of the old table hides a new one with its key.
  cases hr : rows.get? id with
  | none =>
    rw [hr, Option.none_or] at h
    exact .inr (Table.mem_of_get? h)
  | some c' =>
    rw [hr, Option.some_or] at h
    exact .inl h

/-- **The rule of case invariants.** -/
theorem Extends.case_invariant {P : History → Tid → Event → Prop} {H : History}
    {I : History → RecoveryCase → Prop} (h : Extends P [] H)
    (keep : ∀ (H : History) t e c, Lawful ((t, e) :: H) → I H c → I ((t, e) :: H) c)
    (opened : ∀ (H : History) payment id createdAt, Lawful H → payment.status = .failed →
      H.replay.PaymentSeen payment → I H (openedCase id payment createdAt))
    (moved : ∀ (H : History) t sts c c', Lawful ((t, .committed sts) :: H) → P H t (.committed sts) →
      CaseStep (H.own t) H.replay sts c c' → H.replay.recoveryCases.get? c.id = some c →
      I H c → I ((t, .committed sts) :: H) c') :
    ∀ id c, H.replay.recoveryCases.get? id = some c → I H c := by
  induction h using Extends.induction with
  | refl => exact fun id c hc => by cases hc
  | @cons H t e before hlawful cond _ ih =>
    intro id c hc
    -- Only a commit touches cases; it leaves them, opens some, or moves one.
    cases e with
    | committed sts =>
      rw [History.replay_cons, Event.applyTo_committed] at hc
      cases hlawful.caseEffect with
      | same quiet cases =>
        rw [cases] at hc
        exact keep H t _ c hlawful (ih id c hc)
      | opened rows quiet cases fresh =>
        rw [cases] at hc
        rcases get?_append_cases hc with hc | hc
        · exact keep H t _ c hlawful (ih id c hc)
        · obtain ⟨payment, id', createdAt, rfl, hfailed, hseen⟩ := fresh c hc
          exact opened _ payment id' createdAt hlawful hfailed hseen
      | moved c₁ c₂ step row cases =>
        rw [cases] at hc
        split at hc
        · cases hc
          exact moved H t sts c₁ c hlawful cond step row (ih _ c₁ row)
        · exact keep H t _ c hlawful (ih id c hc)
    | _ => exact keep H t _ c hlawful (ih id c hc)

/-- A diagnosis of the case that approved it has been committed. -/
def ApprovedBy (H : History) (d : Diagnosis) : Prop :=
  ∃ t, (t, .committed d.stmts) ∈ H ∧ d.decision.decision = .allow

/-- **What a committed case is like.** -/
structure CaseInv (H : History) (c : RecoveryCase) : Prop where
  /-- The statuses inside a diagnosis are never committed. -/
  settled : c.status ∉ [.eligible, .diagnosing, .recommended, .policyReview]
  payment : ∃ p, H.replay.PaymentSeen p ∧ p.id = c.paymentId ∧ p.status = .failed ∧
    (c.status = .approved ∨ c.status = .executing → 0 < p.amount)
  eligible : c.status = .discovered ∨ c.status = .ineligible ∨ c.eligible = true
  /-- No service counts its contacts. -/
  contacts : c.customerContactCount = 0
  unrecovered : c.status ≠ .recovered → c.recoveredAmount = 0
  /-- An approved case is as its diagnosis left it. -/
  approved : c.status = .approved → ∃ d, ApprovedBy H d ∧ d.after = c
  ready : c.status = .approved ∨ c.status = .executing →
    c.recommendedAction = some .sendPaymentLink ∧ c.recoveryConfidence.isSome

/-- Payments that were seen under one id are one. -/
theorem Db.PaymentSeen.eq {db : Db} {p p' : Payment} (h : db.PaymentSeen p)
    (h' : db.PaymentSeen p') (hid : p.id = p'.id) : p = p' := by
  -- The id is the key of both.
  rw [Db.PaymentSeen, hid] at h
  exact Option.some.inj (h.symm.trans h')

/-- An approval stays in the record. -/
theorem ApprovedBy.cons {H : History} {d : Diagnosis} {p : Tid × Event} (h : ApprovedBy H d) :
    ApprovedBy (p :: H) d := by
  obtain ⟨t, ht, ha⟩ := h
  exact ⟨t, List.mem_cons_of_mem _ ht, ha⟩

/-- Events of others leave a case what it is. -/
theorem CaseInv.cons {H : History} {t : Tid} {e : Event} {c : RecoveryCase}
    (hl : Lawful ((t, e) :: H)) (hi : CaseInv H c) : CaseInv ((t, e) :: H) c where
  settled := hi.settled
  payment := by
    obtain ⟨p, hp, h⟩ := hi.payment
    exact ⟨p, hp.evolves hl.evolves_cons, h⟩
  eligible := hi.eligible
  contacts := hi.contacts
  unrecovered := hi.unrecovered
  approved := fun hs => by
    obtain ⟨d, hd, hc⟩ := hi.approved hs
    exact ⟨d, hd.cons, hc⟩
  ready := hi.ready

/-- A case that is opened is so. -/
theorem CaseInv.opened {H : History} {payment : Payment} (id : Uuid) (createdAt : Time)
    (hfailed : payment.status = .failed) (hseen : H.replay.PaymentSeen payment) :
    CaseInv H (openedCase id payment createdAt) where
  settled := by simp [openedCase]
  payment := ⟨payment, hseen, rfl, hfailed, by simp [openedCase]⟩
  eligible := .inl rfl
  contacts := rfl
  unrecovered := fun _ => rfl
  approved := fun h => by cases h
  ready := fun h => by rcases h with h | h <;> cases h

section Moved

variable {H : History} {t : Tid} {sts : List Stmt} {c c' : RecoveryCase}

/-- Only a diagnosis approves. -/
theorem CaseStep.of_approved {h : List Event} {db : Db} (hs : CaseStep h db sts c c')
    (happroved : c'.status = .approved) : ∃ d : Diagnosis, sts = d.stmts ∧ d.before = c ∧
      d.after = c' ∧ d.Known db ∧ d.next.1 = .approved := by
  cases hs with
  | diagnosed d known => exact ⟨d, rfl, rfl, rfl, known, happroved⟩
  | recorded c attempt made link id completedAt correlationId t inHand =>
    -- After the record of a link the case is executing, not approved.
    have hc := executing_of_phase (CaseStep.case?_of_inHand inHand)
    exact absurd (hc.symm.trans happroved) (by simp)
  | _ => cases happroved

/-- Only a claim, and the record of a link, lead to EXECUTING. -/
theorem CaseStep.of_executing {h : List Event} {db : Db} (hs : CaseStep h db sts c c')
    (hexecuting : c'.status = .executing) :
    (c.status = .approved ∨ c.status = .executing) ∧ c'.recommendedAction = c.recommendedAction ∧
      c'.recoveryConfidence = c.recoveryConfidence := by
  cases hs with
  | diagnosed d known =>
    rw [d.after_status] at hexecuting
    -- A diagnosis never ends in EXECUTING.
    rcases d.next_mem with h | h | h <;> rw [h] at hexecuting <;> cases hexecuting
  | claimed x idle known => exact ⟨.inl known.approved, rfl, rfl⟩
  | recorded c attempt made link id completedAt correlationId t inHand =>
    exact ⟨.inr hexecuting, rfl, rfl⟩
  | _ => cases hexecuting

/-- Whatever moves an admitted case keeps it eligible. -/
theorem CaseStep.eligible {h : List Event} {db : Db} (hs : CaseStep h db sts c c')
    (hc : c.status = .discovered ∨ c.status = .ineligible ∨ c.eligible = true) :
    c'.status = .discovered ∨ c'.status = .ineligible ∨ c'.eligible = true := by
  have hkeep : c.status ≠ .discovered → c'.eligible = c.eligible → c'.eligible = true :=
    fun hne he => by
      -- The case was not new, so it was eligible: an ineligible one does not move.
      rcases hc with hc | hc | hc
      · exact absurd hc hne
      · have hterminal := hs.not_isTerminal
        rw [hc] at hterminal
        cases hterminal
      · rw [he, hc]
  cases hs with
  | turnedAway d => exact .inr (.inl rfl)
  | diagnosed d known status admitted =>
    -- A new case is made eligible by the diagnosis.
    by_cases hd : d.before.status = .discovered
    · refine .inr (.inr ?_)
      rw [d.after_eligible, Diagnosis.admitted, if_pos hd]
      rfl
    · -- One that comes back is so already.
      refine .inr (.inr (hkeep hd ?_))
      rw [d.after_eligible, Diagnosis.admitted, if_neg hd]
  | claimed x idle known =>
    exact .inr (.inr (hkeep (by simp [known.approved]) rfl))
  | withheld x reason t known =>
    exact .inr (.inr (hkeep (by simp [known.approved]) rfl))
  | recorded c attempt made link id completedAt correlationId t inHand =>
    have hc := executing_of_phase (CaseStep.case?_of_inHand inHand)
    exact .inr (.inr (hkeep (by simp [hc]) rfl))
  | gaveUp c attempt made category message reason correlationId completedAt t inHand =>
    have hc := executing_of_phase (CaseStep.case?_of_gaveUp inHand)
    exact .inr (.inr (hkeep (by simp [hc]) rfl))
  | recovered d t t' known executing =>
    exact .inr (.inr (hkeep (by simp [executing]) rfl))
  | failed d attempt t t' known executing =>
    exact .inr (.inr (hkeep (by simp [executing]) rfl))

/-- Only a delivery that recovers the case credits it. -/
theorem CaseStep.recoveredAmount {h : List Event} {db : Db} (hs : CaseStep h db sts c c')
    (hne : c'.status ≠ .recovered) : c'.recoveredAmount = c.recoveredAmount := by
  cases hs with
  | diagnosed d => exact d.after_recoveredAmount
  | recovered d => exact absurd rfl hne
  | _ => rfl

/-- **A move keeps a case so.** -/
theorem CaseInv.moved (hl : Lawful ((t, .committed sts) :: H))
    (hs : CaseStep (H.own t) H.replay sts c c') (hi : CaseInv H c) :
    CaseInv ((t, .committed sts) :: H) c' where
  settled := by
    -- No move ends inside a diagnosis.
    rcases hs.status with ⟨-, h⟩ | ⟨-, h | h | h⟩ | ⟨-, h | h⟩ | ⟨-, h | h | h | h⟩ <;>
      rw [h] <;> decide
  payment := by
    obtain ⟨p, hp, hid, hfailed, hpos⟩ := hi.payment
    refine ⟨p, hp.evolves hl.evolves_cons, hid.trans hs.paymentId.symm, hfailed, fun h => ?_⟩
    rcases h with h | h
    · -- the diagnosis has read this very payment
      obtain ⟨d, -, rfl, -, known, hnext⟩ := hs.of_approved h
      rw [hp.eq known.paymentSeen (hid.trans known.paymentId.symm)]
      exact d.amount_pos hnext
    · exact hpos (hs.of_executing h).1
  eligible := hs.eligible hi.eligible
  contacts := hs.customerContactCount.trans hi.contacts
  unrecovered := fun h => by
    rw [hs.recoveredAmount h]
    -- A recovered case does not move.
    refine hi.unrecovered fun hc => ?_
    have hterminal := hs.not_isTerminal
    rw [hc] at hterminal
    cases hterminal
  approved := fun h => by
    obtain ⟨d, rfl, -, hafter, -, hnext⟩ := hs.of_approved h
    exact ⟨d, ⟨t, List.mem_cons_self, (Diagnosis.approved_iff.mp hnext).1⟩, hafter⟩
  ready := fun h => by
    -- The diagnosis that has approved the case has recommended a payment link.
    rcases h with h | h
    · obtain ⟨d, -, -, rfl, -, hnext⟩ := hs.of_approved h
      rw [d.after_recommendedAction, d.after_recoveryConfidence,
        (Diagnosis.approved_iff.mp hnext).2]
      exact ⟨rfl, rfl⟩
    · -- An executing case was approved, and keeps its recommendation.
      obtain ⟨hc, haction, hconfidence⟩ := hs.of_executing h
      rw [haction, hconfidence]
      exact hi.ready hc

/-- **Every committed case of a lawful record is so.** -/
theorem Lawful.caseInv (h : Lawful H) {id : Uuid}
    (hc : H.replay.recoveryCases.get? id = some c) : CaseInv H c :=
  h.case_invariant (fun _ _ _ _ hl hi => hi.cons hl)
    (fun _ _ id createdAt _ hfailed hseen => .opened id createdAt hfailed hseen)
    (fun _ _ _ _ _ hl _ hs _ hi => hi.moved hl hs) id c hc

end Moved

end RecoverAI
