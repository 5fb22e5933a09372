import RecoverAI.Runs.Cases
import RecoverAI.Runs.Schedules

/-!
# The audit trail

The status changes that the audit trail records of a case form a chain from DISCOVERED
to the status the case has (`Chain`). Each transaction that moves a case contributes a
piece of the chain, from the status it found to the status it leaves
(`CaseStep.chain`), and any other contributes nothing.
-/

namespace RecoverAI

open Interleave

/-! ### Chains -/

/-- Changes of status, each taken from where the one before it ended, and each an edge
of the state machine. -/
def Chain : RecoveryCaseStatus → List (RecoveryCaseStatus × RecoveryCaseStatus) →
    RecoveryCaseStatus → Prop
  | s, [], s' => s = s'
  | s, (source, target) :: l, s' => source = s ∧ canTransition source target ∧ Chain target l s'

namespace Chain

variable {s s' s'' : RecoveryCaseStatus}
  {l l' : List (RecoveryCaseStatus × RecoveryCaseStatus)}

theorem nil : Chain s [] s := rfl

/-- An edge is a chain. -/
theorem single (h : canTransition s s') : Chain s [(s, s')] s' := ⟨rfl, h, rfl⟩

/-- Two chains that meet are one. -/
theorem append (h : Chain s l s') (h' : Chain s' l' s'') : Chain s (l ++ l') s'' := by
  induction l generalizing s with
  | nil =>
    obtain rfl : s = s' := h
    exact h'
  | cons x l ih =>
    obtain ⟨hs, hx, hl⟩ := h
    exact ⟨hs, hx, ih hl⟩

end Chain

/-! ### What is recorded -/

/-- The changes of a case among recorded ones. -/
def changesOf (caseId : Uuid) (sts : List Stmt) :
    List (RecoveryCaseStatus × RecoveryCaseStatus) :=
  (sts.filterMap Stmt.change?).filterMap fun x => if x.1 = caseId then some x.2 else none

/-- The changes of a case that the audit trail records, in commit order. -/
def Db.trail (db : Db) (caseId : Uuid) : List (RecoveryCaseStatus × RecoveryCaseStatus) :=
  changesOf caseId (db.auditEvents.map .insertAuditEvent)

section Changes

variable {caseId : Uuid} {sts sts' : List Stmt}

@[simp] theorem changesOf_nil : changesOf caseId [] = [] := rfl

/-- The changes of two lists are those of the one and those of the other. -/
theorem changesOf_append : changesOf caseId (sts ++ sts') =
    changesOf caseId sts ++ changesOf caseId sts' := by
  simp [changesOf, List.filterMap_append]

/-- What is quiet records no change. -/
theorem Quiet.changesOf (h : Quiet sts) : changesOf caseId sts = [] := by
  rw [RecoverAI.changesOf, List.filterMap_eq_nil_iff.mpr h, List.filterMap_nil]

/-- Statements on other tables are quiet. -/
theorem Quiet.of_table (h : ∀ st ∈ sts, st.table ≠ .auditEvents) : Quiet sts :=
  fun st hst => Stmt.change?_of_table (h st hst)

theorem changesOf_quiet_append (h : Quiet sts) :
    changesOf caseId (sts ++ sts') = changesOf caseId sts' := by
  rw [changesOf_append, h.changesOf, List.nil_append]

theorem changesOf_append_quiet (h : Quiet sts') :
    changesOf caseId (sts ++ sts') = changesOf caseId sts := by
  rw [changesOf_append, h.changesOf, List.append_nil]

/-- A transition records its change. -/
theorem changesOf_transitionStmts {before after : RecoveryCase} {target : RecoveryCaseStatus}
    {correlationId : String} {reason : Option String} {dirty : List Stmt} {now : Time}
    (hd : Quiet dirty) :
    changesOf caseId (transitionStmts before after target correlationId reason dirty now) =
      if after.id = caseId then [(after.status, target)] else [] := by
  -- Of the three parts of a transition only the last one is a change.
  have hupdate : Quiet [.updateCase before { after with status := target }] := by
    simp [Quiet, Stmt.change?]
  change changesOf caseId ([.updateCase before { after with status := target }] ++ (dirty ++ _)) = _
  rw [changesOf_quiet_append hupdate, changesOf_quiet_append hd]
  by_cases h : after.id = caseId <;> simp [changesOf, auditStmt, Stmt.change?, h]

/-- The trail grows by what is committed. -/
theorem trail_applyAll (db : Db) : (Store.applyAll sts db).trail caseId =
    db.trail caseId ++ changesOf caseId sts := by
  rw [changesOf, List.filterMap_filterMap]
  refine Store.applyAll_adds (fun db : Db => db.trail caseId) fun st db => ?_
  -- Only an audit event adds to the trail, and at most one change each.
  cases st with
  | insertAuditEvent row =>
    change changesOf caseId ((db.auditEvents ++ [row]).map .insertAuditEvent) = _
    rw [List.map_append, changesOf_append, ← List.filterMap_filterMap]
    rfl
  | _ => exact (List.append_nil _).symm

end Changes

/-! ### The pieces of the chain -/

section Pieces

variable {id : Uuid}

/-- The request of a diagnosis is quiet. -/
theorem Diagnosis.quiet_requestStmt (d : Diagnosis) : Quiet [d.requestStmt] := by
  simp [Quiet, requestStmt, auditStmt, Stmt.change?]

/-- What a diagnosis that turns its case away records. -/
theorem Diagnosis.changesOf_turnAwayStmts (d : Diagnosis) : changesOf id d.turnAwayStmts =
    if d.before.id = id then [(d.before.status, .ineligible)] else [] := by
  rw [turnAwayStmts, ← List.singleton_append, changesOf_quiet_append d.quiet_requestStmt,
    changesOf_transitionStmts (by simp [Quiet])]

/-- What a diagnosis that goes through records. -/
theorem Diagnosis.changesOf_stmts (d : Diagnosis) : changesOf id d.stmts =
    if d.before.id = id then
      (if d.before.status = .discovered then [(.discovered, .eligible)] else []) ++
        [(d.admitted.status, .diagnosing), (.diagnosing, .recommended),
          (.recommended, .policyReview), (.policyReview, d.next.1)]
    else [] := by
  have hnil : Quiet [] := by simp [Quiet]
  -- Piece by piece: the admission, if the case was new,
  have hadmission : changesOf id d.admissionStmts =
      if d.before.id = id then
        (if d.before.status = .discovered then [(.discovered, .eligible)] else []) else [] := by
    unfold admissionStmts
    split
    · next h => rw [changesOf_transitionStmts hnil, h]
    · rw [changesOf_nil, ite_self]
  -- the answer of the AI, which is no change,
  have hai : Quiet d.aiStmts := by simp [Quiet, aiStmts, auditStmt, Stmt.change?]
  -- the way from ELIGIBLE to the review,
  have hrecommendation : changesOf id d.recommendationStmts =
      if d.before.id = id then [(d.admitted.status, .diagnosing), (.diagnosing, .recommended),
        (.recommended, .policyReview)] else [] := by
    unfold recommendationStmts
    rw [changesOf_append, changesOf_append, changesOf_append_quiet hai,
      changesOf_transitionStmts hnil, changesOf_transitionStmts hnil,
      changesOf_transitionStmts hnil]
    change (if d.admitted.id = id then _ else _) ++ (if d.admitted.id = id then _ else _) ++
      (if d.admitted.id = id then _ else _) = _
    rw [d.admitted_id]
    split <;> rfl
  -- and the review.
  have hreview : changesOf id d.reviewStmts =
      if d.before.id = id then [(.policyReview, d.next.1)] else [] := by
    have hpending : Quiet (d.inReview.pendingUpdate d.versioned) := by
      unfold RecoveryCase.pendingUpdate
      split <;> simp [Quiet, Stmt.change?]
    have hpolicy : Quiet [d.policyStmt] := by simp [Quiet, policyStmt, auditStmt, Stmt.change?]
    have hstatus : d.reviewed.status = .policyReview := by
      rw [reviewed_eq]
      rfl
    unfold reviewStmts
    rw [List.append_assoc, changesOf_quiet_append hpending, changesOf_quiet_append hpolicy,
      changesOf_transitionStmts hnil, d.reviewed_id, hstatus]
  change changesOf id ([d.requestStmt] ++ d.admissionStmts ++ d.recommendationStmts ++
    d.reviewStmts) = _
  rw [changesOf_append, changesOf_append, changesOf_quiet_append d.quiet_requestStmt, hadmission,
    hrecommendation, hreview]
  split <;> simp

/-- A claim takes its case to EXECUTING. -/
theorem Execution.changesOf_claimStmts (x : Execution) : changesOf id x.claimStmts =
    if x.recoveryCase.id = id then [(x.recoveryCase.status, .executing)] else [] := by
  unfold claimStmts
  rw [changesOf_quiet_append (by simp [Quiet, auditStmt, Stmt.change?]),
    changesOf_transitionStmts (by simp [Quiet])]

end Pieces

/-- **A move records the piece of the chain it is**, and nothing about other cases. -/
theorem CaseStep.chain {h : List Event} {db : Db} {sts : List Stmt} {c c' : RecoveryCase}
    (hs : CaseStep h db sts c c') : Chain c.status (changesOf c.id sts) c'.status ∧
      ∀ id, id ≠ c.id → changesOf id sts = [] := by
  have hnil : Quiet [] := by simp [Quiet]
  cases hs with
  | turnedAway d known status =>
    refine ⟨?_, fun id hid => ?_⟩
    · rw [d.changesOf_turnAwayStmts, if_pos rfl, status]
      exact .single (by decide)
    · rw [d.changesOf_turnAwayStmts, if_neg (Ne.symm hid)]
  | diagnosed d known status =>
    refine ⟨?_, fun id hid => ?_⟩
    · rw [d.changesOf_stmts, if_pos rfl]
      -- A new case is made eligible first.
      have hdoor : Chain d.before.status
          (if d.before.status = .discovered then [(.discovered, .eligible)] else [])
          d.admitted.status := by
        unfold Diagnosis.admitted
        split
        · next h => rw [h]; exact .single (by decide)
        · exact .nil
      -- From there the diagnosis goes the same way for all.
      have hdiagnosing : canTransition d.admitted.status .diagnosing := by
        unfold Diagnosis.admitted
        split
        · rfl
        · next h =>
          revert status h
          generalize d.before.status = s
          cases s <;> decide
      -- And the review ends in one of three statuses.
      have hnext : canTransition .policyReview d.next.1 := by
        rcases d.next_mem with h | h | h <;> rw [h] <;> decide
      exact hdoor.append ⟨rfl, hdiagnosing, rfl, by decide, rfl, by decide, rfl, hnext, rfl⟩
    · rw [d.changesOf_stmts, if_neg (Ne.symm hid)]
  | claimed x idle known =>
    refine ⟨?_, fun id hid => ?_⟩
    · rw [x.changesOf_claimStmts, if_pos rfl, known.approved]
      exact .single (by decide)
    · rw [x.changesOf_claimStmts, if_neg (Ne.symm hid)]
  | withheld x reason t known =>
    refine ⟨?_, fun id hid => ?_⟩
    · rw [Execution.withholdStmts, changesOf_append, x.changesOf_claimStmts, if_pos rfl,
        changesOf_transitionStmts hnil, known.approved]
      change Chain _ (_ ++ if x.recoveryCase.id = x.recoveryCase.id then _ else _) _
      rw [if_pos rfl]
      exact ⟨rfl, by decide, rfl, show canTransition .executing .escalated by decide, rfl⟩
    · rw [Execution.withholdStmts, changesOf_append, x.changesOf_claimStmts,
        changesOf_transitionStmts hnil, if_neg (Ne.symm hid)]
      exact if_neg (Ne.symm hid)
  | recorded c attempt made link id completedAt correlationId t inHand =>
    -- A record of a link changes no status.
    have hquiet : Quiet (recordStmts c attempt link id completedAt correlationId t) := by
      intro st hst
      rw [recordStmts, recordFlush, List.cons_append, List.cons_append, List.mem_cons,
        List.append_assoc, List.mem_append] at hst
      rcases hst with rfl | hst | hst
      · rfl
      · refine Stmt.change?_of_table ?_
        rw [RecoveryAttempt.table_of_mem_pendingUpdate hst]
        simp
      · simp only [List.cons_append, List.nil_append, List.mem_cons, List.not_mem_nil,
          or_false] at hst
        rcases hst with rfl | rfl <;> rfl
    rw [hquiet.changesOf]
    exact ⟨.nil, fun _ _ => hquiet.changesOf⟩
  | gaveUp c attempt made category message reason correlationId completedAt t inHand =>
    have hc := executing_of_phase (case?_of_gaveUp inHand)
    -- The attempt is no audit event.
    have hattempt : Quiet (attempt.pendingUpdate (attempt.fail category message completedAt)) :=
      .of_table fun st hst => by
        rw [RecoveryAttempt.table_of_mem_pendingUpdate hst]
        simp
    refine ⟨?_, fun id hid => ?_⟩
    · rw [giveUpStmts, changesOf_quiet_append hattempt, changesOf_transitionStmts hnil, if_pos rfl,
        hc]
      exact .single (by decide)
    · rw [giveUpStmts, changesOf_quiet_append hattempt, changesOf_transitionStmts hnil,
        if_neg (Ne.symm hid)]
  | recovered d t t' known executing =>
    refine ⟨?_, fun id hid => ?_⟩
    · rw [Delivery.recoverStmts, changesOf_quiet_append (d.quiet_observeStmts t),
        changesOf_transitionStmts hnil]
      change Chain _ (if d.loaded.recoveryCase.id = d.loaded.recoveryCase.id then
        [(d.loaded.recoveryCase.status, _)] else _) _
      rw [if_pos rfl, executing]
      exact .single (by decide)
    · rw [Delivery.recoverStmts, changesOf_quiet_append (d.quiet_observeStmts t),
        changesOf_transitionStmts hnil]
      exact if_neg (Ne.symm hid)
  | failed d attempt t t' known executing =>
    have hattempt : Quiet (d.failureStmts attempt) :=
      .of_table fun st hst => by
        rw [d.table_failureStmts hst]
        simp
    refine ⟨?_, fun id hid => ?_⟩
    · rw [Delivery.failStmts, changesOf_quiet_append (d.quiet_observeStmts t),
        changesOf_transitionStmts hattempt, if_pos rfl, executing]
      exact .single (by decide)
    · rw [Delivery.failStmts, changesOf_quiet_append (d.quiet_observeStmts t),
        changesOf_transitionStmts hattempt, if_neg (Ne.symm hid)]

/-! ### The whole trail -/

/-- What the trail says of each id: the chain of its case, or nothing. -/
def TrailInv (db : Db) : Prop :=
  ∀ id, match db.recoveryCases.get? id with
    | some c => Chain .discovered (db.trail id) c.status
    | none => db.trail id = []

/-- **Every lawful record has such a trail**, by the moves of cases. -/
theorem Lawful.trailInv {H : History} (h : Lawful H) : TrailInv H.replay := by
  induction h with
  | refl => exact fun id => rfl
  | @cons H t e before permitted checked _ ih =>
    cases e with
    | committed sts =>
      have hlawful : Lawful ((t, .committed sts) :: H) := .cons before permitted checked trivial
      -- One id at a time: what the commit does to its case it does to its trail.
      intro id
      have ih := ih id
      rw [History.replay_cons, Event.applyTo_committed, trail_applyAll]
      cases hlawful.caseEffect with
      -- Nothing is opened or moved.
      | same quiet cases =>
        rw [cases, quiet.changesOf, List.append_nil]
        exact ih
      | opened rows quiet cases fresh =>
        rw [cases, Table.get?_append, quiet.changesOf, List.append_nil]
        -- An id that has no row yet gets one with an empty trail, or none.
        cases hr : H.replay.recoveryCases.get? id with
        | some c => rw [hr] at ih; exact ih
        | none =>
          rw [hr] at ih
          rw [Option.none_or, ih]
          cases hnew : Table.get? rows id with
          | none => rfl
          | some c =>
            obtain ⟨payment, id', createdAt, rfl, -⟩ := fresh c (Table.mem_of_get? hnew)
            exact .nil
      | moved c c' step row cases =>
        rw [cases]
        -- The case that moves takes its chain on, and the other ones have theirs.
        by_cases hid : c.id = id
        · subst hid
          rw [row] at ih
          rw [if_pos rfl]
          exact Chain.append ih step.chain.1
        · rw [if_neg hid, step.chain.2 id (Ne.symm hid), List.append_nil]
          exact ih
    | _ => exact ih

/-- **The audit trail replays to the state.** In every reachable state, whatever the
interleaving, the recorded changes of a case are a chain from DISCOVERED, along edges of
the state machine, to its status. -/
theorem trail_of_reachable {w : World} (hw : Reachable w) {c : RecoveryCase}
    (hc : c ∈ w.shared.db.recoveryCases) :
    Chain .discovered (w.shared.db.trail c.id) c.status := by
  have hl := Reachable.lawful hw
  rw [Reachable.db_eq hw] at hc ⊢
  -- Rows are told apart by their ids, so the row of the case is the case.
  have hrow : (History.replay w.shared.history).recoveryCases.get? c.id = some c :=
    hl.distinct.caseId.get?_of_mem hc
  have htrail := hl.trailInv c.id
  rw [hrow] at htrail
  exact htrail

set_option maxRecDepth 10000 in
/-- The executed case has six changes on its trail. -/
theorem trail_of_reachable_executed :
    ∃ c ∈ (World.empty.after Sample.executed).shared.db.recoveryCases,
      c.status = .executing ∧
        (((World.empty.after Sample.executed).shared.db.trail c.id).length = 6) ∧
        Chain .discovered ((World.empty.after Sample.executed).shared.db.trail c.id) c.status := by
  have hex : ∃ c ∈ (World.empty.after Sample.executed).shared.db.recoveryCases,
      c.status = .executing ∧
        ((World.empty.after Sample.executed).shared.db.trail c.id).length = 6 := by decide +kernel
  obtain ⟨c, hc, hs, hlen⟩ := hex
  exact ⟨c, hc, hs, hlen, trail_of_reachable (World.reachable_after _) hc⟩

end RecoverAI
