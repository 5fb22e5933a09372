import RecoverAI.Protocol.Effects
import RecoverAI.Services.Lone

/-!
# Services with a willing environment

`Service.Manages` says what a service can get to when no other transaction is open and the
environment is willing: under the settings that are given, with readings of the clock, UUIDs
and answers that may be chosen.

A session that walks a case through its statuses has the case in a form that no row holds
yet; `InSession` is what makes its next update pass.
-/

namespace RecoverAI

open Interleave

namespace Service

/-- Alone, on top of the statements `sts` over `db`, the service can return as `Q` says: of its
result, of the database, and of the statements it leaves. -/
def Manages {α : Type} (t : Tid) (settings : Settings) (x : Service α) (db : Db) (sts : List Stmt)
    (Q : α → Db → List Stmt → Prop) : Prop :=
  ∀ s : State, s.toTxns = .only t db sts →
    machine.Manages t (Input.Under settings) x.run s fun r s' =>
      ∃ a db' sts', r = .ok a ∧ s'.toTxns = .only t db' sts' ∧ Q a db' sts'

variable {α β : Type} {t : Tid} {settings : Settings} {db : Db} {sts : List Stmt}

theorem manages_pure {a : α} {Q : α → Db → List Stmt → Prop} (h : Q a db sts) :
    Manages t settings (pure a) db sts Q :=
  fun _ hs => Machine.manages_done ⟨a, db, sts, rfl, hs, h⟩

theorem Manages.bind {x : Service α} {f : α → Service β} {Q : β → Db → List Stmt → Prop}
    (h : Manages t settings x db sts fun a db' sts' => Manages t settings (f a) db' sts' Q) :
    Manages t settings (x >>= f) db sts Q := by
  intro s hs
  refine Machine.Manages.bind ((h s hs).mono ?_)
  rintro r s' ⟨a, db', sts', rfl, hs', ha⟩
  exact ha s' hs'

theorem Manages.mono {x : Service α} {Q Q' : α → Db → List Stmt → Prop}
    (h : Manages t settings x db sts Q) (hQ : ∀ a db' sts', Q a db' sts' → Q' a db' sts') :
    Manages t settings x db sts Q' := by
  intro s hs
  refine (h s hs).mono ?_
  rintro r s' ⟨a, db', sts', rfl, hs', ha⟩
  exact ⟨a, db', sts', rfl, hs', hQ a db' sts' ha⟩

theorem Manages.map {x : Service α} {f : α → β} {Q : β → Db → List Stmt → Prop}
    (h : Manages t settings x db sts fun a => Q (f a)) : Manages t settings (f <$> x) db sts Q := by
  rw [map_eq_pure_bind]
  exact Manages.bind (h.mono fun _ _ _ => manages_pure)

theorem Manages.tryCatch {x : Service α} {f : Raised → Service α} {Q : α → Db → List Stmt → Prop}
    (h : Manages t settings x db sts Q) : Manages t settings (tryCatch x f) db sts Q := by
  intro s hs
  change machine.Manages t _ (ExceptT.tryCatch x f) s _
  refine Machine.Manages.bind ((h s hs).mono ?_)
  rintro r s' ⟨a, db', sts', rfl, hs', ha⟩
  exact Machine.manages_done ⟨a, db', sts', rfl, hs', ha⟩

/-- A command with a step. -/
private theorem manages_perform {c : Cmd} {Q : c.Reply → Db → List Stmt → Prop} (i : Input)
    (hraises : i.raisesRecoverAI = false) (hi : i.Under settings) (h : ∀ s : State, s.toTxns = .only t db sts →
      ∃ r s' db' sts', exec t c i s = some (r, s') ∧ s'.toTxns = .only t db' sts' ∧ Q r db' sts') :
    Manages t settings (perform c) db sts Q := by
  intro s hs
  obtain ⟨r, s', db', sts', he, hs', hQ⟩ := h s hs
  exact Machine.manages_call hi (machine_exec_of he hraises) (Machine.manages_done ⟨r, db', sts', rfl, hs', hQ⟩)

theorem manages_select {q : Query} {Q : q.Result → Db → List Stmt → Prop} (ranking : List Uuid)
    (h : Q (q.eval (Store.applyAll sts db) ranking) db sts) :
    Manages t settings (select q) db sts Q := by
  refine manages_perform (.ranking ranking) rfl trivial fun s hs => ⟨_, _, db, sts, rfl, hs, ?_⟩
  rw [hs, Txns.only_view]
  exact h

theorem manages_now {Q : Time → Db → List Stmt → Prop} (time : Time) (h : Q time db sts) :
    Manages t settings now db sts Q :=
  manages_perform (.time time) rfl trivial fun _ hs => ⟨_, _, db, sts, rfl, hs, h⟩

theorem manages_getSettings {Q : Settings → Db → List Stmt → Prop} (h : Q settings db sts) :
    Manages t settings getSettings db sts Q :=
  manages_perform (.settings settings) rfl rfl fun _ hs => ⟨_, _, db, sts, rfl, hs, h⟩

theorem manages_readPolicyConfig {Q : PolicyConfig → Db → List Stmt → Prop}
    (h : Q (getPolicyConfig settings) db sts) : Manages t settings readPolicyConfig db sts Q :=
  Manages.bind (manages_getSettings (manages_pure h))

theorem manages_getRecommendation {context : PaymentRecoveryContext}
    {Q : AIOutcome → Db → List Stmt → Prop} (outcome : AIOutcome) (h : Q outcome db sts) :
    Manages t settings (getRecommendation context) db sts Q :=
  Manages.bind (manages_perform (.recommendation (.ok outcome)) rfl trivial fun _ hs =>
    ⟨_, _, db, sts, rfl, hs, manages_pure h⟩)

theorem manages_commit {Q : Unit → Db → List Stmt → Prop} (h : Q () (Store.applyAll sts db) []) :
    Manages t settings commit db sts Q := by
  refine manages_perform .go rfl trivial fun s hs => ⟨_, _, _, [], rfl, ?_, h⟩
  change s.toTxns.commit t = _
  rw [hs, Txns.only_commit]

/-- Statements that pass their checks are flushed. -/
theorem manages_flush {sts' : List Stmt} {Q : Unit → Db → List Stmt → Prop}
    (hc : Store.checkAll sts' (Store.applyAll sts db) = none) (h : Q () db (sts ++ sts')) :
    Manages t settings (flush sts') db sts Q := by
  refine Manages.bind (manages_perform .go rfl trivial fun s hs => ?_)
  refine ⟨.ok (), s.withTxns (.only t db (sts ++ sts')), db, sts ++ sts', ?_, rfl, manages_pure h⟩
  simp only [exec, hs, Txns.only_flush hc]

theorem manages_recordEvent {entity : AuditEntity} {body : AuditBody} {actorType : ActorType}
    {correlationId : String} {dirty : List Stmt} {Q : Unit → Db → List Stmt → Prop} (time : Time)
    (hc : Store.checkAll dirty (Store.applyAll sts db) = none)
    (h : Q () db (sts ++ (dirty ++ [auditStmt entity body actorType correlationId time]))) :
    Manages t settings (recordEvent entity body actorType correlationId dirty) db sts Q := by
  refine Manages.bind (manages_now time (manages_flush ?_ h))
  rw [Store.checkAll_append, hc]
  rfl

end Service

/-! ### The case of a session -/

/-- The session has the case as `c`, on top of statements that pass their checks. -/
structure InSession (db : Db) (sts : List Stmt) (c : RecoveryCase) : Prop where
  checked : Store.checkAll sts db = none
  row : (Store.applyAll sts db).recoveryCases.get? c.id = some c

namespace InSession

variable {db : Db} {sts sts' : List Stmt} {c c' : RecoveryCase}

/-- A session that has read the case and written nothing. -/
theorem of_row (h : db.recoveryCases.get? c.id = some c) : InSession db [] c := ⟨rfl, h⟩

/-- What is read is what is held. -/
theorem append (h : InSession db sts c) (hc : Store.checkAll sts' (Store.applyAll sts db) = none)
    (hturns : Turns sts' c c') (hid : c'.id = c.id) : InSession db (sts ++ sts') c' where
  checked := by rw [Store.checkAll_append, h.checked, Option.none_or, hc]
  row := by rw [Store.applyAll_append, hturns _ h.row, hid, if_pos rfl]

/-- The update of the case passes its version check. -/
theorem check_update (h : InSession db sts c) (after : RecoveryCase) :
    Store.check (Stmt.updateCase c after) (Store.applyAll sts db) = none := by
  change Stmt.ifMatched (((Store.applyAll sts db).recoveryCases.get? c.id).any _) = none
  rw [h.row, Option.any_some, decide_eq_true rfl]
  rfl

theorem check_pendingUpdate (h : InSession db sts c) (after : RecoveryCase) :
    Store.checkAll (c.pendingUpdate after) (Store.applyAll sts db) = none := by
  unfold RecoveryCase.pendingUpdate
  split
  · rfl
  · exact Store.checkAll_cons_eq_none.mpr ⟨h.check_update after, rfl⟩

end InSession

namespace Service

variable {t : Tid} {settings : Settings} {db : Db} {sts : List Stmt} {c : RecoveryCase}
  {correlationId : String}

/-- An audit event leaves the case as it is. -/
theorem manages_record {entity : AuditEntity} {body : AuditBody} {actorType : ActorType}
    {Q : Unit → Db → List Stmt → Prop} (h : InSession db sts c)
    (hQ : ∀ sts', InSession db sts' c → Q () db sts') :
    Manages t settings (recordEvent entity body actorType correlationId []) db sts Q := by
  refine manages_recordEvent 0 rfl (hQ _ (h.append rfl ?_ rfl))
  exact .of_frame fun st hst => by
    rw [List.nil_append, List.mem_singleton] at hst
    rw [hst]
    simp [auditStmt, Stmt.table]

/-- An audit event that is flushed with a change of the case. -/
theorem manages_recordUpdate {after : RecoveryCase} {entity : AuditEntity} {body : AuditBody}
    {actorType : ActorType} {Q : Unit → Db → List Stmt → Prop} (h : InSession db sts c)
    (hroot : Turns.SameRoot c after) (hQ : ∀ sts', InSession db sts' (c.flushed after) → Q () db sts') :
    Manages t settings (recordEvent entity body actorType correlationId (c.pendingUpdate after)) db
      sts Q := by
  have hid : (c.flushed after).id = c.id := by
    unfold RecoveryCase.flushed
    split <;> exact hroot.id
  have hupdate : Turns (c.pendingUpdate after) c (c.flushed after) := .pendingUpdate hroot
  refine manages_recordEvent 0 (h.check_pendingUpdate after) (hQ _ (h.append ?_ ?_ hid))
  · rw [Store.checkAll_append, h.check_pendingUpdate after]
    rfl
  · exact hupdate.of_suffix hid fun st hst => by
      rw [List.mem_singleton.mp hst]
      simp [auditStmt, Stmt.table]

/-- A transition that the state machine allows. -/
theorem manages_transition {after : RecoveryCase} {target : RecoveryCaseStatus}
    {reason : Option String} {Q : RecoveryCase → Db → List Stmt → Prop} (h : InSession db sts c)
    (hroot : Turns.SameRoot c after) (hallowed : canTransition after.status target)
    (hQ : ∀ sts', InSession db sts' (c.moved after target) → Q (c.moved after target) db sts') :
    Manages t settings (transition c after target correlationId reason []) db sts Q := by
  have hvalid : validateTransition after.status target = .ok () :=
    validateTransition_eq_ok_iff.mpr hallowed
  have hupdate : Store.checkAll [.updateCase c { after with status := target }]
      (Store.applyAll sts db) = none :=
    Store.checkAll_cons_eq_none.mpr ⟨h.check_update _, rfl⟩
  have hturns : Turns (transitionStmts c after target correlationId reason [] 0) c
      (c.moved after target) := .transitionStmts hroot (by simp)
  have hheld : InSession db (sts ++ transitionStmts c after target correlationId reason [] 0)
      (c.moved after target) := by
    refine h.append ?_ hturns hroot.id
    rw [RecoverAI.transitionStmts, Store.checkAll_append, hupdate]
    rfl
  simp only [RecoverAI.transition, hvalid]
  refine Manages.bind (manages_pure (Manages.bind (manages_flush hupdate ?_)))
  refine Manages.bind (manages_recordEvent 0 rfl (manages_pure ?_))
  rw [List.append_assoc]
  exact hQ _ hheld

end Service

/-! ### Diagnoses and executions -/

namespace Service

variable {t : Tid} {settings : Settings} {db : Db} {sts : List Stmt} {d : Diagnosis}

/-- Every place a diagnosis can lead to is open to a case in review. -/
theorem canTransition_next (d : Diagnosis) : canTransition .policyReview d.next.1 := by
  have hmem : ∀ target ∈ [RecoveryCaseStatus.approved, .stopped, .escalated],
      canTransition .policyReview target := by decide
  refine hmem _ ?_
  unfold Diagnosis.next resolveNextStatus
  cases d.decision.decision <;> simp only <;> split_ifs <;> simp

/-- The review of a recommendation gets the case to where it is to go. -/
theorem manages_reviewRecommendation (hconfig : d.config = getPolicyConfig settings)
    (h : InSession db sts d.inReview) :
    Manages t settings (reviewRecommendation d.inReview d.payment d.outcome d.correlationId none)
      db sts fun _ db' sts' => sts' = [] ∧ db'.recoveryCases.get? d.before.id = some d.after := by
  refine Manages.bind (manages_readPolicyConfig ?_)
  rw [← hconfig]
  refine Manages.bind (manages_now d.now ?_)
  have hversioned : Turns.SameRoot d.inReview d.versioned := ⟨rfl, rfl, rfl, rfl⟩
  refine Manages.bind (manages_recordUpdate h hversioned fun sts h => ?_)
  have hallowed : canTransition d.reviewed.status d.next.1 := by
    have hstatus : d.reviewed.status = .policyReview := by rw [d.reviewed_eq]; rfl
    rw [hstatus]
    exact canTransition_next d
  refine Manages.bind (manages_transition h (.refl _) hallowed fun sts h => ?_)
  refine Manages.bind (manages_commit (manages_pure ⟨rfl, ?_⟩))
  have hrow := h.row
  change (Store.applyAll sts db).recoveryCases.get? d.after.id = some d.after at hrow
  rwa [d.after_id] at hrow

/-- The part of a diagnosis behind the door. -/
theorem manages_diagnoseEligible {loaded : CaseForDiagnosis} {c : RecoveryCase}
    (hpayment : loaded.payment = d.payment) (hadmitted : d.admitted = c)
    (hconfig : d.config = getPolicyConfig settings) (hallowed : canTransition c.status .diagnosing)
    (h : InSession db sts c) :
    Manages t settings (diagnoseEligible loaded c d.correlationId none) db sts
      fun _ db' sts' => sts' = [] ∧ db'.recoveryCases.get? d.before.id = some d.after := by
  subst hadmitted
  refine Manages.bind (manages_transition h (.refl _) hallowed fun sts h => ?_)
  refine Manages.bind (manages_now 0 (Manages.bind (manages_getRecommendation d.outcome ?_)))
  refine Manages.bind (manages_record h fun sts h => Manages.bind (manages_record h fun sts h => ?_))
  have hrecommended : Turns.SameRoot d.diagnosing
      (d.diagnosing.withRecommendation d.outcome.recommendation) := ⟨rfl, rfl, rfl, rfl⟩
  refine Manages.bind (manages_transition h hrecommended rfl fun sts h => ?_)
  refine Manages.bind (manages_transition h (.refl _) rfl fun sts h => ?_)
  rw [hpayment]
  exact manages_reviewRecommendation hconfig h

/-- **A diagnosis gets to its end**, with any recommendation and at any time. -/
theorem manages_diagnoseRecoveryCase {ranking : List Uuid}
    (hread : db.caseForDiagnosis ranking d.before.id =
      some ⟨d.before, d.payment, d.customer, d.attempts⟩)
    (hrow : db.recoveryCases.get? d.before.id = some d.before)
    (hstatus : d.before.status = .discovered ∨ d.before.status = .failed)
    (heligible : d.eligible = true) (hconfig : d.config = getPolicyConfig settings) :
    Manages t settings (diagnoseRecoveryCase d.before.id d.correlationId none) db []
      fun _ db' sts' => sts' = [] ∧ db'.recoveryCases.get? d.before.id = some d.after := by
  have heval : Query.eval (Store.applyAll [] db) ranking (.caseForDiagnosis d.before.id) =
      some ⟨d.before, d.payment, d.customer, d.attempts⟩ := hread
  have hdiagnosable : ¬ d.before.status ∉ diagnosableStatuses := by
    rcases hstatus with h | h <;> rw [h] <;> decide
  refine Manages.tryCatch (Manages.bind (manages_select ranking ?_))
  rw [heval]
  simp only [if_neg hdiagnosable]
  refine Manages.bind (manages_record (.of_row hrow) fun sts h => ?_)
  by_cases hdiscovered : d.before.status = .discovered
  · -- the case passes the door
    rw [if_pos hdiscovered, evaluateEligibility]
    have hdoor : (d.payment.status = .failed ∧ d.payment.amount > 0) := by
      simpa [Diagnosis.eligible] using heligible
    have hadmitted : d.before.moved { d.before with eligible := true } .eligible = d.admitted := by
      rw [Diagnosis.admitted, if_pos hdiscovered]
    simp only [hdoor, and_self, decide_true, if_true]
    have hallowed : canTransition d.before.status .eligible := by
      rw [hdiscovered]
      decide
    refine Manages.bind (manages_transition h ⟨rfl, rfl, rfl, rfl⟩ hallowed fun sts h => ?_)
    exact manages_diagnoseEligible rfl hadmitted.symm hconfig rfl h
  · have hadmitted : d.admitted = d.before := by rw [Diagnosis.admitted, if_neg hdiscovered]
    have hallowed : canTransition d.before.status .diagnosing := by
      rw [hstatus.resolve_left hdiscovered]
      decide
    rw [if_neg hdiscovered]
    exact manages_diagnoseEligible rfl hadmitted hconfig hallowed h

theorem manages_escalate {c : RecoveryCase} {reason correlationId : String}
    {decision : Option PolicyDecision} (hallowed : canTransition c.status .escalated)
    (h : InSession db sts c) : Manages t settings (escalate c c reason correlationId decision) db sts
      fun _ db' sts' => sts' = [] ∧ db'.recoveryCases.get? c.id = some (c.moved c .escalated) :=
  Manages.bind (manages_transition h (.refl c) hallowed fun _ h =>
    Manages.bind (manages_commit (manages_pure ⟨rfl, h.row⟩)))

/-- **An execution that the policy blocks hands its case over.** -/
theorem manages_executeRecoveryCase_of_block {x : Execution} {ranking : List Uuid}
    (hread : db.caseForExecution ranking x.recoveryCase.id =
      some ⟨x.recoveryCase, x.payment, x.attempts⟩)
    (hrow : db.recoveryCases.get? x.recoveryCase.id = some x.recoveryCase)
    (hstatus : x.recoveryCase.status = .approved)
    (haction : x.recoveryCase.recommendedAction = some x.action)
    (hblock : x.decision.decision = .block) :
    Manages t x.settings (executeRecoveryCase x.recoveryCase.id x.correlationId) db []
      fun _ db' sts' => sts' = [] ∧ db'.recoveryCases.get? x.recoveryCase.id = some x.withheld := by
  have heval : Query.eval (Store.applyAll [] db) ranking (.caseForExecution x.recoveryCase.id) =
      some ⟨x.recoveryCase, x.payment, x.attempts⟩ := hread
  have hallowed : canTransition x.recoveryCase.status .executing :=
    canTransition_executing_iff.mpr hstatus
  refine Manages.tryCatch (Manages.bind (manages_select ranking ?_))
  rw [heval]
  simp only [validateTransition_eq_ok_iff.mpr hallowed]
  refine Manages.bind (manages_pure (Manages.bind (manages_record (.of_row hrow) fun sts h => ?_)))
  -- the re-check
  refine Manages.bind (Manages.bind (manages_readPolicyConfig (Manages.bind (manages_now x.now ?_))))
  rw [recommendedActionOf, haction]
  refine Manages.bind (manages_pure (manages_pure ?_))
  have hblock : (evaluatePolicy (recheckPolicyInput x.recoveryCase x.payment x.action x.now)
      (getPolicyConfig x.settings)).decision = .block := hblock
  refine Manages.bind (manages_record h fun sts h => ?_)
  refine Manages.bind (manages_transition h (.refl _) hallowed fun sts h => ?_)
  rw [if_pos hblock]
  exact manages_escalate rfl h

end Service

end RecoverAI
