import RecoverAI.Protocol.Effects

/-!
# How a transaction rewrites a case

A transaction may update one case several times. `Rewrites c sts c'` says that it does so in
turn: each update of `sts` is of the row the one before it has left, from `c` on, and the last
one leaves `c'`. A session that has read `c` and passes the checks has found that very row
(`Rewrites.row_of_checkAll`), and so has each update the row it was made from
(`Rewrites.row_of_update`). Every move of a case is of this kind (`CaseStep.rewrites`).
-/

namespace RecoverAI

open Interleave

/-- The statements update one case, each time the row that is there. -/
inductive Rewrites : RecoveryCase → List Stmt → RecoveryCase → Prop
  | nil (c : RecoveryCase) : Rewrites c [] c
  | other {c c' : RecoveryCase} {st : Stmt} {sts : List Stmt} (table : st.table ≠ .recoveryCases)
      (rest : Rewrites c sts c') : Rewrites c (st :: sts) c'
  | update {c c' after : RecoveryCase} {sts : List Stmt} (root : Turns.SameRoot c after)
      (rest : Rewrites { after with version := c.version + 1 } sts c') :
      Rewrites c (.updateCase c after :: sts) c'

namespace Rewrites

variable {sts sts' pre post : List Stmt} {c c' c'' before after : RecoveryCase}

/-! ### How they are put together -/

/-- Statements over other tables. -/
theorem of_frame (h : ∀ st ∈ sts, st.table ≠ .recoveryCases) : Rewrites c sts c := by
  induction sts with
  | nil => exact .nil c
  -- no statement is an update of a case, so the row stays
  | cons st sts ih =>
    obtain ⟨hst, hsts⟩ := List.forall_mem_cons.mp h
    exact .other hst (ih hsts)

/-- **One after the other.** -/
theorem append (h : Rewrites c sts c') (h' : Rewrites c' sts' c'') :
    Rewrites c (sts ++ sts') c'' := by
  induction h with
  | nil => exact h'
  | other table _ ih => exact .other table (ih h')
  | update root _ ih => exact .update root (ih h')

/-- Statements over other tables come first. -/
theorem of_skip (hpre : ∀ st ∈ pre, st.table ≠ .recoveryCases) (h : Rewrites c sts c') :
    Rewrites c (pre ++ sts) c' :=
  (of_frame hpre).append h

/-- And behind. -/
theorem of_suffix (h : Rewrites c sts c') (hpost : ∀ st ∈ post, st.table ≠ .recoveryCases) :
    Rewrites c (sts ++ post) c' :=
  h.append (of_frame hpost)

/-- A transition updates its case once. -/
theorem transitionStmts {target : RecoveryCaseStatus} {correlationId : String}
    {reason : Option String} {dirty : List Stmt} {now : Time} (h : Turns.SameRoot c after)
    (hd : ∀ st ∈ dirty, st.table ≠ .recoveryCases) :
    Rewrites c (RecoverAI.transitionStmts c after target correlationId reason dirty now)
      (c.moved after target) := by
  -- the update is the first statement, what follows leaves the cases alone
  refine .update ⟨h.id, h.paymentId, h.revenueAtRisk, h.createdAt⟩ (of_frame fun st hst => ?_)
  rcases List.mem_append.mp hst with hst | hst
  · exact hd st hst
  · rw [List.mem_singleton.mp hst]
    simp [auditStmt, Stmt.table]

/-- The pending update of an object, if it was changed. -/
theorem pendingUpdate (h : Turns.SameRoot c after) :
    Rewrites c (c.pendingUpdate after) (c.flushed after) := by
  unfold RecoveryCase.pendingUpdate RecoveryCase.flushed
  by_cases he : after = c
  · rw [if_pos he, if_pos he, he]
    -- nothing was changed, so nothing is written
    exact .nil c
  · rw [if_neg he, if_neg he]
    exact .update h (.nil _)

/-! ### What follows -/

/-- The updates of a case among some statements. -/
def updates (caseId : Uuid) (sts : List Stmt) : ℕ :=
  sts.countP fun st => st.caseUpdate?.any fun x => x.1.id = caseId

/-- Statements that update no case. -/
theorem updates_eq_zero {caseId : Uuid} (h : ∀ st ∈ sts, st.caseUpdate? = none) :
    updates caseId sts = 0 :=
  List.countP_eq_zero.mpr fun st hst => by simp [h st hst]

/-- Only the one case is updated. -/
theorem updates_of_ne {caseId : Uuid} (h : Rewrites c sts c') (hne : c.id ≠ caseId) :
    updates caseId sts = 0 := by
  induction h with
  | nil => rfl
  | @other _ _ st sts table _ ih =>
    -- a statement over another table updates no case
    have hnone : st.caseUpdate? = none := by
      cases st <;> first | rfl | exact absurd rfl table
    simpa [updates, hnone] using ih hne
  | update root _ ih =>
    -- the row that is written keeps its id
    simpa [updates, Stmt.caseUpdate?, hne] using ih (by rwa [root.id])

/-- Each update adds one to the version. -/
theorem version_eq (h : Rewrites c sts c') : c'.version = c.version + updates c.id sts := by
  induction h with
  | nil => simp [updates]
  | @other _ _ st sts table _ ih =>
    have hnone : st.caseUpdate? = none := by
      cases st <;> first | rfl | exact absurd rfl table
    simpa [updates, hnone] using ih
  | @update c c' after sts root _ ih =>
    -- this update is one of those that are counted
    have hcount : updates c.id (.updateCase c after :: sts) = updates c.id sts + 1 := by
      simp [updates, Stmt.caseUpdate?]
    have ih : c'.version = c.version + 1 + updates after.id sts := ih
    rw [ih, hcount, root.id]
    omega

/-- So they turn the first row into the last. -/
theorem turns (h : Rewrites c sts c') : Turns sts c c' := by
  -- by the rows in between: each statement turns its row into the next
  induction h with
  | nil => exact .of_frame (by simp)
  | @other c _ st sts table _ ih =>
    have hst : ∀ st' ∈ [st], st'.table ≠ .recoveryCases := by simpa using table
    exact ih.of_prefix hst
  | update root _ ih =>
    have hfirst := Turns.updateCase root
    exact hfirst.append ih root.id

/-- If the version grows and the checks pass, the case that was read is the row. -/
theorem row_of_checkAll (h : Rewrites c sts c') (hlt : c.version < c'.version) {db : Db}
    (hseen : db.CaseSeen c) (hc : Store.checkAll sts db = none) :
    db.recoveryCases.get? c.id = some c := by
  -- the induction is on the statements: up to the first update, the row is the one that was seen
  induction h generalizing db with
  | nil => exact absurd hlt (lt_irrefl _)
  | @other c _ st sts table _ ih =>
    have hst : ∀ st' ∈ [st], st'.table ≠ .recoveryCases := by simpa using table
    have hframe : (st.apply db).recoveryCases = db.recoveryCases := Stmt.frame_recoveryCases hst
    obtain ⟨-, hrest⟩ := Store.checkAll_cons_eq_none.mp hc
    obtain ⟨r, hr, hb⟩ := hseen
    have hrow : (st.apply db).recoveryCases.get? c.id = some c :=
      ih hlt ⟨r, by rw [hframe]; exact hr, hb⟩ hrest
    rwa [hframe] at hrow
  -- the check of the first update compares the versions
  | update => exact hseen.of_check (Store.checkAll_cons_eq_none.mp hc).1

/-- The row that an update finds is the one it was made from. -/
theorem row_of_update (h : Rewrites c (pre ++ .updateCase before after :: post) c') {db : Db}
    (hc : db.recoveryCases.get? c.id = some c) :
    (Store.applyAll pre db).recoveryCases.get? before.id = some before := by
  -- by what stands before the update: it has brought the table to the row the update starts from
  induction pre generalizing c db with
  | nil =>
    cases h with
    -- an update is no statement over another table
    | other table _ => exact absurd rfl table
    | update => exact hc
  | cons st pre ih =>
    rw [Store.applyAll_cons]
    cases h with
    | other table rest =>
      -- the statement leaves the cases alone
      have hst : ∀ st' ∈ [st], st'.table ≠ .recoveryCases := by simpa using table
      have hframe : (st.apply db).recoveryCases = db.recoveryCases := Stmt.frame_recoveryCases hst
      refine ih rest ?_
      change (st.apply db).recoveryCases.get? c.id = some c
      rw [hframe, hc]
    | @update _ _ after' _ root rest =>
      refine ih rest ?_
      -- the statement is an earlier update of the same case
      have hturns := Turns.updateCase root db hc c.id
      rw [if_pos rfl] at hturns
      exact (congrArg (Table.get? (Store.applyAll [.updateCase c after'] db).recoveryCases)
        root.id).trans hturns

end Rewrites

/-! ### The transactions that update a case -/

namespace Diagnosis

variable (d : Diagnosis)

/-- A case that is turned away is updated once. -/
theorem rewrites_turnAwayStmts : Rewrites d.before d.turnAwayStmts d.turnedAway := by
  have hrequest : ∀ st ∈ [d.requestStmt], st.table ≠ .recoveryCases := by
    simp [requestStmt, auditStmt, Stmt.table]
  exact .of_skip hrequest (.transitionStmts ⟨rfl, rfl, rfl, rfl⟩ (by simp))

/-- **A diagnosis** updates its case up to six times, each time from the row of the one before. -/
theorem rewrites_stmts : Rewrites d.before d.stmts d.after := by
  have hrequest : ∀ st ∈ [d.requestStmt], st.table ≠ .recoveryCases := by
    simp [requestStmt, auditStmt, Stmt.table]
  -- what is audited in between leaves the case alone
  have hai : ∀ st ∈ d.aiStmts, st.table ≠ .recoveryCases := by
    simp [aiStmts, auditStmt, Stmt.table]
  have hpolicy : ∀ st ∈ [d.policyStmt], st.table ≠ .recoveryCases := by
    simp [policyStmt, auditStmt, Stmt.table]
  -- the door
  have hadmission : Rewrites d.before d.admissionStmts d.admitted := by
    unfold admissionStmts admitted
    split
    · exact .transitionStmts ⟨rfl, rfl, rfl, rfl⟩ (by simp)
    · exact .nil _
  -- the three transitions, each from the row the one before has left
  have hdiagnosing : Rewrites d.admitted
      (transitionStmts d.admitted d.admitted .diagnosing d.correlationId none [] d.t₂)
      d.diagnosing := .transitionStmts (.refl _) (by simp)
  have hrecommended : Rewrites d.diagnosing (transitionStmts d.diagnosing
      (d.diagnosing.withRecommendation d.outcome.recommendation) .recommended d.correlationId none []
      d.t₅) d.recommended := .transitionStmts ⟨rfl, rfl, rfl, rfl⟩ (by simp)
  have hinReview : Rewrites d.recommended
      (transitionStmts d.recommended d.recommended .policyReview d.correlationId none [] d.t₆)
      d.inReview := .transitionStmts (.refl _) (by simp)
  -- the review
  have hreviewed : Rewrites d.inReview (d.inReview.pendingUpdate d.versioned) d.reviewed :=
    .pendingUpdate ⟨rfl, rfl, rfl, rfl⟩
  have hafter : Rewrites d.reviewed
      (transitionStmts d.reviewed d.reviewed d.next.1 d.correlationId d.next.2 [] d.t₈) d.after :=
    .transitionStmts (.refl _) (by simp)
  have hrecommendation : Rewrites d.admitted d.recommendationStmts d.inReview :=
    ((hdiagnosing.of_suffix hai).append hrecommended).append hinReview
  have hreview : Rewrites d.inReview d.reviewStmts d.after :=
    (hreviewed.of_suffix hpolicy).append hafter
  exact ((Rewrites.of_skip hrequest hadmission).append hrecommendation).append hreview

end Diagnosis

namespace Execution

variable (x : Execution)

/-- The claim of an execution. -/
theorem rewrites_claimStmts : Rewrites x.recoveryCase x.claimStmts x.claimed :=
  .of_skip (by simp [auditStmt, Stmt.table]) (.transitionStmts (.refl _) (by simp))

/-- A claim that is withdrawn. -/
theorem rewrites_withholdStmts (reason : String) (now : Time) :
    Rewrites x.recoveryCase (x.withholdStmts reason now) x.withheld :=
  x.rewrites_claimStmts.append (.transitionStmts (.refl _) (by simp))

end Execution

/-- The record of a link. -/
theorem rewrites_recordStmts (c : RecoveryCase) (attempt : RecoveryAttempt)
    (link : PaymentLinkSnapshot) (id : Uuid) (completedAt : Time) (correlationId : String)
    (now : Time) :
    Rewrites c (recordStmts c attempt link id completedAt correlationId now) c.recorded := by
  refine .update ⟨rfl, rfl, rfl, rfl⟩ (.of_frame fun st hst => ?_)
  -- the attempt, the link, the audit event
  rcases List.mem_append.mp hst with hst | hst
  · rcases List.mem_append.mp hst with hst | hst
    · rw [RecoveryAttempt.table_of_mem_pendingUpdate hst]
      simp
    · rw [List.mem_singleton.mp hst]
      simp [Stmt.table]
  · rw [List.mem_singleton.mp hst]
    simp [auditStmt, Stmt.table]

/-- Giving up. -/
theorem rewrites_giveUpStmts (c : RecoveryCase) (attempt : RecoveryAttempt)
    (category : ProviderFailureCategory) (message reason correlationId : String)
    (completedAt now : Time) :
    Rewrites c (giveUpStmts c attempt category message reason correlationId completedAt now)
      c.givenUp := by
  -- the attempt is written first
  refine .of_skip (fun st hst => ?_) (.transitionStmts (.refl _) (by simp))
  rw [RecoveryAttempt.table_of_mem_pendingUpdate hst]
  simp

namespace Delivery

variable (d : Delivery)

/-- A payment in full. -/
theorem rewrites_recoverStmts (now now' : Time) :
    Rewrites d.loaded.recoveryCase (d.recoverStmts now now') d.recovered :=
  .of_skip d.observeStmts_ne (.transitionStmts ⟨rfl, rfl, rfl, rfl⟩ (by simp))

/-- A link that will not be paid. -/
theorem rewrites_failStmts (attempt : Option RecoveryAttempt) (now now' : Time) :
    Rewrites d.loaded.recoveryCase (d.failStmts attempt now now') d.failed := by
  refine .of_skip d.observeStmts_ne (.transitionStmts (.refl _) fun st hst => ?_)
  rw [d.table_failureStmts hst]
  simp

end Delivery

/-- Every move of a case rewrites it. -/
theorem CaseStep.rewrites {h : List Event} {db : Db} {sts : List Stmt} {c c' : RecoveryCase}
    (step : CaseStep h db sts c c') : Rewrites c sts c' := by
  cases step with
  | turnedAway d => exact d.rewrites_turnAwayStmts
  | diagnosed d => exact d.rewrites_stmts
  | claimed x => exact x.rewrites_claimStmts
  | withheld x reason t => exact x.rewrites_withholdStmts reason t
  | recorded c attempt made link id completedAt correlationId t =>
    exact rewrites_recordStmts c attempt link id completedAt correlationId t
  | gaveUp c attempt made category message reason correlationId completedAt t =>
    exact rewrites_giveUpStmts c attempt category message reason correlationId completedAt t
  | recovered d t t' => exact d.rewrites_recoverStmts t t'
  | failed d attempt t t' => exact d.rewrites_failStmts attempt t t'

end RecoverAI
