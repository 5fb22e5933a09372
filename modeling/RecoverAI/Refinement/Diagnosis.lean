import RecoverAI.Refinement.Common

/-!
# The diagnosis service keeps the protocol

The text of `diagnose_recovery_case` is followed statement by statement; at its two
commits the statements it has flushed are those of `Diagnosis.stmts` and
`Diagnosis.turnAwayStmts`.
-/

namespace RecoverAI

open Interleave

variable {t : Tid} {p : List Stmt} {h h₀ : List Event} {F : List Fact} {s : State}

/-! ### What a diagnosis computes -/

/-- A diagnosis ends in a status the policy review may lead to. -/
theorem canTransition_resolveNextStatus (action : RecoveryAction) (decision : PolicyDecisionType)
    (codes : List PolicyReasonCode) :
    canTransition .policyReview (resolveNextStatus action decision codes).1 := by
  unfold resolveNextStatus
  split
  · -- Allowed: the action decides.
    split_ifs <;> rfl
  · -- Blocked: the reasons do.
    split_ifs <;> rfl

namespace Diagnosis

variable (d : Diagnosis)

/-- The review of the policy leaves the case where it is. -/
theorem reviewed_status : d.reviewed.status = .policyReview := by
  unfold reviewed RecoveryCase.flushed
  split <;> rfl

/-- What is admitted may be diagnosed. -/
theorem admitted_status (hd : d.before.status ∈ diagnosableStatuses) :
    canTransition d.admitted.status .diagnosing := by
  unfold admitted
  split
  · rfl
  · -- The case is past the door: ELIGIBLE already, or FAILED.
    next hne =>
    simp only [diagnosableStatuses, List.mem_cons, List.not_mem_nil, or_false, hne, false_or] at hd
    rcases hd with hd | hd <;> rw [hd] <;> rfl

/-- A diagnosis does not begin an execution. -/
theorem next_status_ne : d.next.1 ≠ .executing := by
  intro he
  have hv := canTransition_resolveNextStatus d.outcome.recommendation.recommendedAction
    d.decision.decision d.decision.reasonCodes
  rw [show (resolveNextStatus _ _ _).1 = d.next.1 from rfl, he] at hv
  cases hv

/-- The transaction of a diagnosis claims nothing for execution. -/
theorem claimOf_append_reviewStmts (sts : List Stmt) : claimOf (sts ++ d.reviewStmts) = none := by
  -- The last update of the transaction takes the case elsewhere.
  refine claimOf_eq_none_of_mem d.reviewed { d.reviewed with status := d.next.1 } ?_ d.next_status_ne
  simp [reviewStmts, transitionStmts]

/-- Nor does the transaction that turns the case away. -/
theorem claimOf_turnAwayStmts : claimOf d.turnAwayStmts = none := by
  refine claimOf_eq_none_of_mem d.before
    { d.before with eligible := false, status := .ineligible } ?_ (by simp)
  simp [turnAwayStmts, transitionStmts]

end Diagnosis

/-- A diagnosis of `caseId` has returned. -/
structure Diagnosed (h₀ : List Event) (caseId : Uuid) (response : DiagnosisResponse)
    (h : List Event) : Prop extends Proceeds (some caseId) h₀ h where
  leaves : ∃ sts rest, h = .committed sts :: rest ∧ h₀ <:+ rest ∧
    Leaves .diagnosis sts caseId response.caseStatus
  whole : WholeDiagnosis h₀.tail caseId response.caseStatus h

/-- The commit of a diagnosis concludes it. -/
theorem Diagnosed.of_stmts {d : Diagnosis} {caseId : Uuid} {response : DiagnosisResponse}
    (hr : Proceeds (some caseId) h₀ h) (hid : d.before.id = caseId)
    (hc : claimOf d.stmts = none) (hstatus : response.caseStatus = d.next.1)
    (hwhole : WholeDiagnosis h₀.tail caseId d.next.1 (.committed d.stmts :: h)) :
    Diagnosed h₀ caseId response (.committed d.stmts :: h) where
  -- The transaction records no link and updates no other case.
  toProceeds := hr.committed hc (Internal.diagnosis d).filterMap_linkInsert?
    (hid ▸ (Solely.diagnosis d).cases)
  leaves := by
    refine ⟨d.stmts, h, rfl, hr.suffix, ?_⟩
    rw [hstatus, ← hid]
    exact .diagnosed d
  whole := hstatus ▸ hwhole

/-- A case that is turned away at the door concludes it as well. -/
theorem Diagnosed.of_turnAwayStmts {d : Diagnosis} {caseId : Uuid} {response : DiagnosisResponse}
    (hr : Proceeds (some caseId) h₀ h) (hid : d.before.id = caseId)
    (hstatus : response.caseStatus = .ineligible)
    (hwhole : WholeDiagnosis h₀.tail caseId .ineligible (.committed d.turnAwayStmts :: h)) :
    Diagnosed h₀ caseId response (.committed d.turnAwayStmts :: h) where
  toProceeds := hr.committed d.claimOf_turnAwayStmts (Internal.turnAway d).filterMap_linkInsert?
    (hid ▸ (Solely.turnAway d).cases)
  leaves := by
    refine ⟨d.turnAwayStmts, h, rfl, hr.suffix, ?_⟩
    rw [hstatus, ← hid]
    exact .turnedAway d
  whole := hstatus ▸ hwhole

/-- The record `h` ends with all that the diagnosis `d` reads, so it may commit. -/
structure Completes (h₀ : List Event) (caseId : Uuid) (d : Diagnosis) (h : List Event) (db : Db) :
    Prop where
  txn : Txn h db d.stmts
  whole : WholeDiagnosis h₀.tail caseId d.next.1 (.committed d.stmts :: h)

/-- With its reads in the record, and the case in a status it is diagnosed in, it may commit. -/
theorem Completes.of_reads {d : Diagnosis} {caseId : Uuid} {settings : Settings} {db : Db}
    (t' : Time) (hid : d.before.id = caseId) (hconfig : d.config = getPolicyConfig settings)
    (heq : h = d.reads settings t' ++ h₀.tail) (hop : NotDelivery h) (hidle : phase h = .idle)
    (hknown : d.Known db) (hst : d.before.status ∈ diagnosableStatuses)
    (hadmitted : d.before.status = .discovered → d.eligible = true) : Completes h₀ caseId d h db where
  txn := .diagnosed d hop hidle hknown hst hadmitted
    ⟨settings, t', hconfig, heq ▸ List.prefix_append ..⟩
  -- What was read is the newest part of the record, since the step began.
  whole := by
    subst hid
    rw [heq]
    exact .diagnosed d settings t' hst hadmitted hconfig

/-- A diagnosis of `caseId` has raised `e`: it has committed nothing, and the facts `G`
say why. -/
structure FailsDiagnosis (h₀ : List Event) (caseId : Uuid) (G : List Fact) (e : Raised)
    (p : List Stmt) (h : List Event) : Prop extends Fails (some caseId) h₀ e p h where
  commits : RecoverAI.commits h = RecoverAI.commits h₀
  undiagnosed : ∀ db, Facts G db → Undiagnosed h db caseId

/-- The error continuation of a diagnosis. -/
abbrev OnUndiagnosed (t : Tid) (caseId : Uuid) (h : List Event) (F : List Fact)
    (K : Raised → Prog sig Outcome) : Prop :=
  ∀ e h' G p' s', (∀ f ∈ F, f ∈ G) → FailsDiagnosis h caseId G e p' h' → Here t p' h' G s' →
    Follows t (K e) s'

/-! ### The case in hand -/

/-- The session has made `c` of the case it has read as `c₀`, unless another transaction
has moved the case since. -/
def Holding (F : List Fact) (c₀ : RecoveryCase) (p : List Stmt) (c : RecoveryCase) : Prop :=
  ∀ db, Facts F db → Store.checkAll p db = none →
    db.Outdated c₀ ∨ (Store.applyAll p db).recoveryCases.get? c.id = some c

namespace Holding

variable {c₀ c c' after : RecoveryCase} {sts : List Stmt}

/-- At first, the session holds what it has read. -/
theorem refl (hc : .caseSeen c₀ ∈ F) : Holding F c₀ [] c₀ := by
  intro db hF _
  -- Either nobody has moved the row since it was read, or its version is past the one read.
  obtain ⟨r, hr, hb⟩ := hF _ hc
  by_cases hv : r.version = c₀.version
  · rw [hb.unchanged hv] at hr
    exact .inr hr
  · exact .inl ⟨r, hr, lt_of_le_of_ne hb.version (Ne.symm hv)⟩

/-- Statements that turn the row from one value to the next take the case in hand along. -/
theorem turns (hh : Holding F c₀ p c) (ht : Turns sts c c') (hid : c'.id = c.id) :
    Holding F c₀ (p ++ sts) c' := by
  intro db hF hc
  -- If the row is still the one in hand, the new statements act on it.
  rw [Store.checkAll_append, Option.or_eq_none_iff] at hc
  refine (hh db hF hc.1).imp_right fun hrow => ?_
  rw [Store.applyAll_append, ht _ hrow, hid, if_pos rfl]

/-- Audit events leave the case in hand. -/
theorem audits (hh : Holding F c₀ p c) (sts : List Stmt) (h : ∀ st ∈ sts, st.table = .auditEvents) :
    Holding F c₀ (p ++ sts) c :=
  hh.turns (.of_frame fun st hst => by rw [h st hst]; simp) rfl

/-- **Only another transaction makes an update of the case stale.** -/
theorem outdated (hh : Holding F c₀ p c) {db : Db} {e : DbError} (hF : Facts F db)
    (hp : Store.checkAll p db = none)
    (hc : Store.checkAll [.updateCase c after] (Store.applyAll p db) = some e) :
    db.Outdated c₀ := by
  -- The row in hand has the version of the update, which would then be matched.
  refine (hh db hF hp).resolve_right fun hrow => ?_
  rw [Store.checkAll, Store.checkAll, Option.or_none] at hc
  exact version_ne_of_check hc hrow rfl

/-- The same of an update that may change nothing. -/
theorem outdated_of_pendingUpdate (hh : Holding F c₀ p c) {db : Db} {e : DbError}
    (hF : Facts F db) (hp : Store.checkAll p db = none)
    (hc : Store.checkAll (c.pendingUpdate after) (Store.applyAll p db) = some e) :
    db.Outdated c₀ := by
  unfold RecoveryCase.pendingUpdate at hc
  -- An update that changes nothing is not sent, and cannot be refused.
  split at hc
  · cases hc
  · exact hh.outdated hF hp hc

end Holding

/-- A stale flush of a diagnosis. -/
theorem follows_of_stale {caseId : Uuid} {loaded : CaseForDiagnosis} {sts : List Stmt}
    {K : Raised → Prog sig Outcome} (herr : OnUndiagnosed t caseId h₀ F K)
    (hr : Proceeds (some caseId) h₀ h) (hn : commits h = commits h₀)
    (hread : .selected (.caseForDiagnosis caseId) (some loaded) ∈ h₀)
    (hs : Here t [] (.refused sts .stale :: h) F s) (hout : s.db.Outdated loaded.recoveryCase) :
    Follows t (K .staleData) s := by
  have hr := hr.refused sts .stale
  refine herr _ _ (.outdated loaded.recoveryCase :: F) _ s (fun f hf => List.mem_cons_of_mem _ hf)
    ⟨.stale hr [], hn, fun db hG => ?_⟩ (hs.learn hout)
  exact .moved loaded (hr.suffix.subset hread) (hG _ List.mem_cons_self)

namespace OnUndiagnosed

variable {caseId : Uuid}

/-- More may be known when it raises. -/
theorem mono {G : List Fact} {K : Raised → Prog sig Outcome} (hK : OnUndiagnosed t caseId h₀ F K)
    (hF : ∀ f ∈ F, f ∈ G) : OnUndiagnosed t caseId h₀ G K :=
  fun e h' G' p' s' hG hf hs => hK e h' G' p' s' (fun f hf => hG f (hF f hf)) hf hs

/-- The guard passes the errors of a diagnosis on, and turns a stale flush into a domain
error. -/
theorem guarded {α : Type} {K : Except Raised α → Prog sig Outcome}
    (hK : ∀ e h' G p' s', (∀ f ∈ F, f ∈ G) → e ≠ .staleData → FailsDiagnosis h₀ caseId G e p' h' →
      Here t p' h' G s' → Follows t (K (.error e)) s') :
    OnUndiagnosed t caseId h₀ F fun e => RecoverAI.guarded K (.error e) := by
  intro e h' G p' s' hG hf hs
  cases e with
  -- The guard has rolled back, so nothing is flushed when the domain error arrives.
  | staleData =>
    refine follows_guarded_stale hs fun m s hs => ?_
    exact hK _ h' G [] s hG (by simp)
      ⟨.of_nil hf.toProceeds, hf.commits, hf.undiagnosed⟩ hs
  | _ => exact hK _ h' G p' s' hG (by simp) hf hs

end OnUndiagnosed

/-! ### Following the text -/

section Review

variable {K : Except Raised DiagnosisResponse → Prog sig Outcome}

/-- Without a configuration of its own, a diagnosis reads the settings. -/
theorem follows_policyConfigOrSettings {K : Except Raised PolicyConfig → Prog sig Outcome}
    (hs : Here t p h F s)
    (hk : ∀ settings s', Here t p (.configured settings :: h) F s' →
      Follows t (K (.ok (getPolicyConfig settings))) s') :
    Follows t ((policyConfigOrSettings none).run >>= K) s := by
  unfold policyConfigOrSettings readPolicyConfig
  rw [run_bind_bind]
  exact follows_getSettings hs fun settings s hs => hk settings s hs

/-- The last part. -/
theorem follows_reviewRecommendation {d : Diagnosis} {caseId : Uuid} (hid : d.before.id = caseId)
    (hr : Proceeds (some caseId) h₀ h) (hn : commits h = commits h₀)
    (hread : .selected (.caseForDiagnosis caseId)
      (some ⟨d.before, d.payment, d.customer, d.attempts⟩) ∈ h₀)
    (hh : Holding F d.before p d.inReview) (hs : Here t p h F s)
    (hstmts : ∀ config now t₇ t₈, p ++ { d with config, now, t₇, t₈ }.reviewStmts =
      { d with config, now, t₇, t₈ }.stmts)
    (hcommit : ∀ settings now t₇ t₈ h', Resumes h₀ h' →
      h' = [.clock t₈, .clock t₇, .clock now, .configured settings] ++ h → ∀ db, Facts F db →
      Completes h₀ caseId { d with config := getPolicyConfig settings, now, t₇, t₈ } h' db)
    (hk : ∀ response h' s', Diagnosed h₀ caseId response h' → Here t [] h' F s' →
      Follows t (K (.ok response)) s')
    (herr : OnUndiagnosed t caseId h₀ F fun e => K (.error e)) :
    Follows t ((reviewRecommendation d.inReview d.payment d.outcome d.correlationId
      none).run >>= K) s := by
  unfold reviewRecommendation
  simp only []
  rw [run_bind_bind]
  refine follows_policyConfigOrSettings hs fun settings s hs => ?_
  let config := getPolicyConfig settings
  simp only []
  rw [run_bind_bind]
  refine follows_now hs fun now s hs => ?_
  have hr := (hr.configured settings).clock now
  simp only []
  rw [run_bind_bind]
  let d' : Diagnosis := { d with config, now }
  -- The policy version goes out with the audit event of the decision, in one flush.
  refine follows_recordEvent_dirty (d.inReview.pendingUpdate d'.versioned)
    hs (RecoveryCase.unkeyed_pendingUpdate _ _) (fun t₇ db e _ _ _ => ?_) (fun t₇ s hs => ?_)
    fun t₇ sts s hp hc hs => ?_
  · refine .of_idle (hr.clock t₇).idle ?_
    simpa [auditStmt] using Stmt.insertCase_notMem (RecoveryCase.unkeyed_pendingUpdate _ _)
  · have hr := hr.clock t₇
    have ht : Turns (d.inReview.pendingUpdate d'.versioned) d.inReview d'.reviewed :=
      .pendingUpdate ⟨rfl, rfl, rfl, rfl⟩
    have hh : Holding F d.before (p ++ (d.inReview.pendingUpdate d'.versioned ++
        [{ d' with t₇ }.policyStmt])) d'.reviewed := by
      rw [← List.append_assoc]
      exact (hh.turns ht (d'.reviewed_id.trans d.inReview_id.symm)).audits _
        (by simp [Diagnosis.policyStmt, auditStmt, Stmt.table])
    simp only []
    rw [run_bind_bind]
    -- The transition to where the decision leads.
    refine follows_transition d'.reviewed d'.reviewed d'.next.1 d'.next.2 hs ?_ (by simp)
      (fun db e _ _ _ => ?_)
      (fun t₈ s hs => ?_) fun sts s hp hc hs => ?_
    · rw [d'.reviewed_status]
      exact canTransition_resolveNextStatus _ _ _
    · exact .of_idle hr.idle (by simp)
    · have hr := hr.clock t₈
      simp only []
      rw [run_bind_bind]
      let d'' : Diagnosis := { d' with t₇, t₈ }
      -- All that was flushed since the case was read is the transaction of this diagnosis.
      have hs := hs.restate d''.stmts
        ((List.append_assoc ..).trans (hstmts config now t₇ t₈))
      refine follows_commit hs
        (fun db hF _ => (hcommit settings now t₇ t₈ _ hr.toResumes rfl db hF).txn)
        fun db s hF _ _ hs => ?_
      have hwhole := (hcommit settings now t₇ t₈ _ hr.toResumes rfl db hF).whole
      have hclaim : claimOf d''.stmts = none := by
        rw [← hstmts config now t₇ t₈]
        exact d''.claimOf_append_reviewStmts p
      exact hk _ _ s (.of_stmts (d := d'') hr hid hclaim rfl hwhole) hs
    · -- The transition was refused: somebody else has moved the case.
      exact follows_of_stale herr hr hn hread hs (hh.outdated hs.facts hp hc)
  · -- So was the flush of the decision.
    exact follows_of_stale herr (hr.clock t₇) hn hread hs
      (hh.outdated_of_pendingUpdate hs.facts hp hc)

/-- The middle part, for an admitted case. -/
theorem follows_diagnoseEligible {d : Diagnosis} {caseId : Uuid} (hid : d.before.id = caseId)
    (hv : canTransition d.admitted.status .diagnosing) (hr : Proceeds (some caseId) h₀ h)
    (hn : commits h = commits h₀)
    (hread : .selected (.caseForDiagnosis caseId)
      (some ⟨d.before, d.payment, d.customer, d.attempts⟩) ∈ h₀)
    (hh : Holding F d.before p d.admitted) (hs : Here t p h F s)
    (hstmts : p = d.requestStmt :: d.admissionStmts)
    (hcommit : ∀ outcome settings now t' t₂ t₃ t₄ t₅ t₆ t₇ t₈ h', Resumes h₀ h' →
      h' = [.clock t₈, .clock t₇, .clock now, .configured settings, .clock t₆, .clock t₅,
        .clock t₄, .clock t₃,
        .recommended (buildContext d.payment d.customer d.attempts t') (.ok outcome), .clock t',
        .clock t₂] ++ h → ∀ db, Facts F db →
      Completes h₀ caseId { d with
        outcome, config := getPolicyConfig settings, now, t₂, t₃, t₄, t₅, t₆, t₇, t₈ } h' db)
    (hk : ∀ response h' s', Diagnosed h₀ caseId response h' → Here t [] h' F s' →
      Follows t (K (.ok response)) s')
    (herr : OnUndiagnosed t caseId h₀ F fun e => K (.error e)) :
    Follows t ((diagnoseEligible ⟨d.before, d.payment, d.customer, d.attempts⟩ d.admitted
      d.correlationId none).run >>= K) s := by
  unfold diagnoseEligible
  rw [run_bind_bind]
  -- The case is taken to DIAGNOSING before the AI is asked.
  refine follows_transition d.admitted d.admitted .diagnosing none hs hv (by simp)
    (fun db e _ _ _ => .of_idle hr.idle (by simp)) (fun t₂ s hs => ?_) fun sts s hp hc hs => ?_
  · have hr := hr.clock t₂
    have ht : Turns (transitionStmts d.admitted d.admitted .diagnosing d.correlationId none [] t₂)
        d.admitted d.diagnosing := .transitionStmts (.refl _) (by simp)
    have hh := hh.turns ht rfl
    simp only []
    rw [run_bind_bind]
    refine follows_now hs fun t' s hs => ?_
    have hr := hr.clock t'
    simp only []
    rw [run_bind_bind, getRecommendation, run_bind_bind]
    refine follows_getRecommendation hs fun answer s hspares hs => ?_
    cases answer with
    -- The AI raises: the diagnosis ends here, with what it has flushed.
    | error e =>
      have hclean := (hspares e rfl).of_suffix hr.suffix
      have hr := hr.recommended (buildContext d.payment d.customer d.attempts t') (.error e)
      exact herr e _ F _ s (fun _ hf => hf) ⟨⟨hr, hclean⟩, hn,
        fun _ _ => .unanswered _ e List.mem_cons_self⟩ hs
    -- It answers: its two events follow, and the recommendation goes onto the case.
    | ok outcome =>
      have hr := hr.recommended (buildContext d.payment d.customer d.attempts t') (.ok outcome)
      let d₁ : Diagnosis := { d with outcome, t₂ }
      simp only []
      refine follows_pure ?_
      simp only []
      rw [run_bind_bind]
      refine follows_recordEvent hs fun t₃ s hs => ?_
      have hr := hr.clock t₃
      simp only []
      rw [run_bind_bind]
      refine follows_recordEvent hs fun t₄ s hs => ?_
      have hr := hr.clock t₄
      let ai : List Stmt := { d₁ with t₃, t₄ }.aiStmts
      have hh := hh.audits ai (by simp [ai, Diagnosis.aiStmts, auditStmt, Stmt.table])
      have hs := hs.restate (p ++ transitionStmts d.admitted d.admitted .diagnosing d.correlationId
        none [] t₂ ++ ai) (List.append_assoc ..)
      simp only []
      rw [run_bind_bind]
      refine follows_transition d₁.diagnosing
        (d₁.diagnosing.withRecommendation outcome.recommendation) .recommended none hs rfl (by simp)
        (fun db e _ _ _ => .of_idle hr.idle (by simp)) (fun t₅ s hs => ?_)
        fun sts s hp hc hs => ?_
      · -- The case is RECOMMENDED, and goes on to the policy review.
        have hr := hr.clock t₅
        have ht : Turns (transitionStmts d₁.diagnosing
            (d₁.diagnosing.withRecommendation outcome.recommendation) .recommended d.correlationId
            none [] t₅) d₁.diagnosing d₁.recommended :=
          .transitionStmts ⟨rfl, rfl, rfl, rfl⟩ (by simp)
        have hh := hh.turns ht rfl
        simp only []
        rw [run_bind_bind]
        refine follows_transition d₁.recommended d₁.recommended .policyReview none hs rfl
          (by simp) (fun db e _ _ _ => .of_idle hr.idle (by simp)) (fun t₆ s hs => ?_)
          fun sts s hp hc hs => ?_
        · -- What was flushed so far is put in the form the last part expects.
          have hr := hr.clock t₆
          have ht : Turns (transitionStmts d₁.recommended d₁.recommended .policyReview
              d.correlationId none [] t₆) d₁.recommended d₁.inReview :=
            .transitionStmts (.refl _) (by simp)
          have hh := hh.turns ht rfl
          let d₂ : Diagnosis := { d₁ with t₃, t₄, t₅, t₆ }
          have hs := hs.restate (p ++ d₂.recommendationStmts) (by
            simp only [Diagnosis.recommendationStmts, Diagnosis.aiStmts, List.append_assoc]
            rfl)
          have hh : Holding F d₂.before (p ++ d₂.recommendationStmts) d₂.inReview := by
            simp only [Diagnosis.recommendationStmts, Diagnosis.aiStmts, List.append_assoc] at hh ⊢
            exact hh
          exact follows_reviewRecommendation (d := d₂) hid hr hn hread hh hs
            (fun config now t₇ t₈ => by rw [hstmts]; rfl)
            (fun settings now t₇ t₈ h' hh heq db hF =>
              hcommit outcome settings now t' t₂ t₃ t₄ t₅ t₆ t₇ t₈ h' hh heq db hF) hk herr
        · exact follows_of_stale herr hr hn hread hs (hh.outdated hs.facts hp hc)
      · exact follows_of_stale herr hr hn hread hs (hh.outdated hs.facts hp hc)
  · exact follows_of_stale herr hr hn hread hs (hh.outdated hs.facts hp hc)

end Review

/-- What a diagnosis has loaded was committed. -/
theorem Db.caseForDiagnosis_eq_some {db : Db} {ranking : List Uuid} {caseId : Uuid}
    {loaded : CaseForDiagnosis} (hq : db.caseForDiagnosis ranking caseId = some loaded) :
    db.recoveryCases.get? caseId = some loaded.recoveryCase ∧
      db.payments.get? loaded.recoveryCase.paymentId = some loaded.payment := by
  simp only [Db.caseForDiagnosis, Option.bind_eq_bind, Option.bind_eq_some_iff, Option.pure_def,
    Option.some.injEq] at hq
  obtain ⟨c, hc, payment, hpay, customer, -, rfl⟩ := hq
  exact ⟨hc, hpay⟩

/-- Statuses outside the diagnosable ones cannot be taken to DIAGNOSING. -/
theorem validateTransition_of_notMem_diagnosable {status : RecoveryCaseStatus}
    (hst : status ∉ diagnosableStatuses) :
    ∃ m, validateTransition status .diagnosing = .error (.invalidStateTransition m) := by
  have hv : canTransition status .diagnosing = false := by
    -- A status is in the list or has no way to DIAGNOSING.
    cases status <;> first | rfl | simp [diagnosableStatuses] at hst
  unfold validateTransition
  rw [hv]
  exact ⟨_, rfl⟩

/-- The door, for a discovered case. -/
theorem follows_evaluateEligibility {d : Diagnosis} {K : Except Raised RecoveryCase → Prog sig Outcome}
    (hdisc : d.before.status = .discovered) (hr : Resumes h₀ h)
    (hs : Here t p h F s)
    (hin : d.eligible = true → ∀ t₁ s',
      Here t (p ++ { d with t₁ }.admissionStmts) (.clock t₁ :: h) F s' →
      Follows t (K (.ok d.admitted)) s')
    (hout : d.eligible = false → ∀ t₁ s',
      Here t (p ++ transitionStmts d.before { d.before with eligible := false } .ineligible
        d.correlationId (some "Payment is not in a failed state, or has a non-positive amount.")
        [] t₁) (.clock t₁ :: h) F s' →
      Follows t (K (.ok d.turnedAway)) s')
    (herr : ∀ after sts s', Store.checkAll p s'.db = none →
      Store.checkAll [.updateCase d.before after] (Store.applyAll p s'.db) = some .stale →
      Here t [] (.refused sts .stale :: h) F s' → Follows t (K (.error .staleData)) s') :
    Follows t ((evaluateEligibility d.before d.payment d.correlationId).run >>= K) s := by
  have hrefused : ∀ after (db : Db) e, Facts F db → Store.checkAll p db = none →
      Store.checkAll [.updateCase d.before after] (Store.applyAll p db) = some e →
      Refused h db [.updateCase d.before after] e := fun after db e _ _ _ =>
    .of_idle hr.idle (by simp)
  unfold evaluateEligibility
  by_cases hel : d.payment.status = .failed ∧ d.payment.amount > 0
  · -- The payment has failed, and there is an amount to recover.
    have hd : d.eligible = true := decide_eq_true hel
    simp only [hel]
    refine follows_transition _ _ _ _ hs ?_ (by simp) (hrefused _) (fun t₁ s hs => ?_)
      fun sts s hp hc hs => herr _ sts s hp hc hs
    · rw [hdisc]; rfl
    · have hadm : d.admitted = d.before.moved { d.before with eligible := true } .eligible :=
        if_pos hdisc
      have hstmts : { d with t₁ }.admissionStmts = transitionStmts d.before
          { d.before with eligible := true } .eligible d.correlationId none [] t₁ := if_pos hdisc
      have hin := hin hd t₁ s
      rw [hadm, hstmts] at hin
      exact hin hs
  · -- It has not, or there is nothing to recover: the case is turned away.
    have hd : d.eligible = false := decide_eq_false hel
    simp only [hel]
    refine follows_transition _ _ _ _ hs ?_ (by simp) (hrefused _) (fun t₁ s hs => ?_)
      fun sts s hp hc hs => herr _ sts s hp hc hs
    · rw [hdisc]; rfl
    · exact hout hd t₁ s hs

/-- **The diagnosis service keeps the protocol.** -/
theorem follows_diagnoseRecoveryCase {caseId : Uuid} {correlationId : String}
    {K : Except Raised DiagnosisResponse → Prog sig Outcome} [NotDelivery h]
    (hidle : phase h = .idle) (hs : Here t [] h F s)
    (hk : ∀ loaded response h' s',
      Diagnosed (.selected (.caseForDiagnosis caseId) loaded :: h) caseId response h' →
      Here t [] h' F s' → Follows t (K (.ok response)) s')
    (herr : ∀ loaded e h' G p s', (∀ f ∈ F, f ∈ G) → e ≠ .staleData →
      FailsDiagnosis (.selected (.caseForDiagnosis caseId) loaded :: h) caseId G e p h' →
      Here t p h' G s' → Follows t (K (.error e)) s') :
    Follows t ((diagnoseRecoveryCase caseId correlationId none).run >>= K) s := by
  unfold diagnoseRecoveryCase diagnoseRecoveryCaseBody
  rw [run_guard_bind, run_bind_bind]
  refine follows_select hs (fun _ _ => rfl) fun ids s hs => ?_
  -- the step begins with the select; what it leaves is counted from there
  have hk := hk (Query.eval s.db ids (.caseForDiagnosis caseId))
  have herr := OnUndiagnosed.guarded (herr (Query.eval s.db ids (.caseForDiagnosis caseId)))
  have hidle : phase (.selected (.caseForDiagnosis caseId)
      (Query.eval s.db ids (.caseForDiagnosis caseId)) :: h) = .idle := by
    rw [phase_cons, Phase.next_selected, hidle]
  have hnot := ((Grows.refl h).cons (e := .selected (.caseForDiagnosis caseId)
    (Query.eval s.db ids (.caseForDiagnosis caseId))) (by simp)).notDelivery
  cases hq : Query.eval s.db ids (.caseForDiagnosis caseId) with
  | none =>
    -- There is no such case.
    rw [hq] at hs hk herr hidle
    have hr : Proceeds (some caseId) _ _ := .refl hidle
    exact follows_raise (herr _ _ F [] s (fun _ hf => hf)
      ⟨.of_nil hr, rfl, fun _ _ => .missing List.mem_cons_self⟩ hs)
  | some loaded =>
    rw [hq] at hs hk herr hidle hnot
    have hr : Proceeds (some caseId) _ _ := .refl hidle
    obtain ⟨hcase, hpay⟩ := Db.caseForDiagnosis_eq_some hq
    have hid : loaded.recoveryCase.id = caseId := Table.key_of_get? hcase
    have hpid : loaded.payment.id = loaded.recoveryCase.paymentId := Table.key_of_get? hpay
    have hs := (hs.learn (f := .caseSeen loaded.recoveryCase) (.of_get? hcase)).learn
      (f := .paymentSeen loaded.payment) (.of_get? hpay)
    let G : List Fact := .paymentSeen loaded.payment :: .caseSeen loaded.recoveryCase :: F
    have hFG : ∀ f ∈ F, f ∈ G := fun f hf =>
      List.mem_cons_of_mem _ (List.mem_cons_of_mem _ hf)
    have herr := herr.mono hFG
    have hok : ∀ response h' s',
        Diagnosed (.selected (.caseForDiagnosis caseId) (some loaded) :: h) caseId response h' →
        Here t [] h' G s' → Follows t (guarded K (.ok response)) s' := fun response h' s' hd hs =>
      hk response h' s' hd (hs.forget hFG)
    have hknown : ∀ db, Facts G db → db.CaseSeen loaded.recoveryCase ∧
        db.PaymentSeen loaded.payment := fun db hF =>
      ⟨hF (.caseSeen loaded.recoveryCase) (by simp [G]),
        hF (.paymentSeen loaded.payment) (by simp [G])⟩
    simp only []
    -- The case is in no status it is diagnosed in: the transition is illegal.
    by_cases hst : loaded.recoveryCase.status ∉ diagnosableStatuses
    · obtain ⟨m, hv⟩ := validateTransition_of_notMem_diagnosable hst
      rw [if_pos hst, hv, run_bind_bind]
      exact follows_raise (herr _ _ G [] s (fun _ hf => hf)
        ⟨.of_nil hr, rfl, fun _ _ => .undiagnosable loaded List.mem_cons_self hst⟩ hs)
    · rw [if_neg hst, run_bind_bind]
      rw [Classical.not_not] at hst
      refine follows_recordEvent hs fun t₀ s hs => ?_
      have hr := hr.clock t₀
      simp only []
      rw [run_ite_bind]
      -- what is known so far; the rest of the diagnosis is filled in as it goes
      let d : Diagnosis :=
        { before := loaded.recoveryCase, payment := loaded.payment, customer := loaded.customer
          attempts := loaded.attempts, outcome := default, config := default, now := 0
          correlationId, t₀, t₁ := 0, t₂ := 0, t₃ := 0, t₄ := 0, t₅ := 0, t₆ := 0, t₇ := 0, t₈ := 0 }
      have hread : .selected (.caseForDiagnosis caseId) (some loaded) ∈
          Event.selected (.caseForDiagnosis caseId) (some loaded) :: h := List.mem_cons_self
      have hh : Holding G d.before [d.requestStmt] d.before :=
        (Holding.refl (by simp [G, d])).audits _
          (by simp [Diagnosis.requestStmt, auditStmt, Stmt.table])
      -- a discovered case has to pass the door first
      split_ifs with hdisc
      · rw [run_bind_bind]
        refine follows_evaluateEligibility (d := d) hdisc hr.toResumes hs (fun hel t₁ s hs => ?_)
          (fun hel t₁ s hs => ?_) fun after sts s hp hc hs => ?_
        · -- Through the door, which is the first transition of the transaction.
          let d₁ : Diagnosis := { d with t₁ }
          have hadm : d.admitted.status = .eligible := by
            rw [show d.admitted = _ from if_pos hdisc]
            rfl
          simp only []
          rw [if_neg (by rw [hadm]; simp)]
          refine follows_diagnoseEligible (d := d₁) hid (d.admitted_status hst) (hr.clock t₁) rfl
            hread (hh.turns d₁.turns_admissionStmts d₁.admitted_id) hs rfl
            (fun outcome settings now t' t₂ t₃ t₄ t₅ t₆ t₇ t₈ h' hh heq db hF => ?_) hok herr
          refine .of_reads t' hid rfl ?_ hh.toGrows.notDelivery hh.idle
            ⟨(hknown db hF).1, (hknown db hF).2, hpid⟩ hst (fun _ => hel)
          rw [Diagnosis.reads, Diagnosis.admissionReads, if_pos hdisc, heq]
          subst hid
          rfl
        · -- Turned away: this is the whole transaction.
          let d₁ : Diagnosis := { d with t₁ }
          have hr := hr.clock t₁
          simp only []
          rw [if_pos (show d.turnedAway.status = .ineligible from rfl), run_bind_bind]
          refine follows_commit hs (fun db hF _ => ?_) fun db s _ _ _ hs => ?_
          · exact Txn.turnedAway d₁ hr.toGrows.notDelivery hr.idle
              ⟨(hknown db hF).1, (hknown db hF).2, hpid⟩ hdisc hel
              ⟨h, by subst hid; rfl⟩
          · have hwhole : WholeDiagnosis h caseId .ineligible (.committed d₁.turnAwayStmts ::
                .clock d₁.t₁ :: .clock d₁.t₀ ::
                .selected (.caseForDiagnosis caseId) (some loaded) :: h) := by
              subst hid
              exact .turnedAway d₁ hdisc hel
            exact hok _ _ s (.of_turnAwayStmts hr hid rfl hwhole) hs
        · exact follows_of_stale herr hr rfl hread hs (hh.outdated hs.facts hp hc)
      · -- Any other case is admitted as it is.
        have hadm : d.admitted = loaded.recoveryCase := if_neg hdisc
        have hnil : d.admissionStmts = [] := if_neg hdisc
        rw [← hadm]
        refine follows_diagnoseEligible (d := d) hid (d.admitted_status hst) hr rfl hread
          (by rw [hadm]; exact hh) hs (by rw [hnil]; rfl) ?_ hok herr
        intro outcome settings now t' t₂ t₃ t₄ t₅ t₆ t₇ t₈ h' hh heq db hF
        refine .of_reads t' hid rfl ?_ hh.toGrows.notDelivery hh.idle
          ⟨(hknown db hF).1, (hknown db hF).2, hpid⟩ hst (fun hd => absurd hd hdisc)
        rw [Diagnosis.reads, Diagnosis.admissionReads, if_neg hdisc, heq]
        subst hid
        rfl

end RecoverAI
