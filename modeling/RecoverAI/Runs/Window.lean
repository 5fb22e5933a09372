import RecoverAI.Runs.Approval
import RecoverAI.Runs.Diagnoses

/-!
# The recovery window

How long a case may be pursued. The policy is told whole days, rounded down, and blocks
when these exceed the window, so a case is approved and executed until a whole day beyond
the window has passed, and no longer (`withinWindow_of_reachable`).
-/

namespace RecoverAI

open Interleave

/-- Less than a whole day beyond the window has passed. -/
def Settings.WithinWindow (settings : Settings) (elapsed : Int) : Prop :=
  elapsed < (settings.policyMaxRecoveryWindowDays + 1) * microsecondsPerDay

/-- Rounding down gains what is left of a day. -/
theorem wholeDays_le_iff {elapsed days : Int} :
    wholeDays elapsed ≤ days ↔ elapsed < (days + 1) * microsecondsPerDay := by
  rw [wholeDays, Int.le_iff_lt_add_one, Int.ediv_lt_iff_lt_mul (by decide)]

/-! ### Approvals -/

namespace Diagnosis

variable (d : Diagnosis)

theorem inReview_createdAt : d.inReview.createdAt = d.before.createdAt := by
  have hadmitted : d.admitted.createdAt = d.before.createdAt := by
    unfold admitted
    split
    · rfl
    · rfl
  exact hadmitted

/-- A diagnosis that approves has found its case within the window. -/
theorem withinWindow {d : Diagnosis} {settings : Settings} (h : d.next.1 = .approved)
    (hconfig : d.config = getPolicyConfig settings) :
    settings.WithinWindow (d.now - d.before.createdAt) := by
  obtain ⟨hallow, haction⟩ := approved_iff.mp h
  have hdays := ((evaluatePolicy_sendPaymentLink_iff haction).mp hallow).2.1
  rw [hconfig] at hdays
  rw [Settings.WithinWindow, ← d.inReview_createdAt]
  exact wholeDays_le_iff.mp hdays

end Diagnosis

/-- A diagnosis writes something that nobody else does. -/
theorem Diagnosis.not_undiagnostic (d : Diagnosis) : ¬ Undiagnostic d.stmts := by
  intro h
  have hrequest : d.requestStmt ∈ d.stmts := by simp [stmts]
  have hquiet := h _ hrequest
  simp [requestStmt, auditStmt, Stmt.diagnostic, AuditBody.diagnostic] at hquiet

/-- Only a diagnosis turns a case into an approved one. -/
theorem CaseStep.diagnostic_of_approved {h : List Event} {db : Db} {sts : List Stmt}
    {c c' : RecoveryCase} (step : CaseStep h db sts c c') (happroved : c'.status = .approved) :
    ¬ Undiagnostic sts := by
  cases step with
  | diagnosed d known status admitted => exact d.not_undiagnostic
  | recorded c attempt made link id completedAt correlationId t inHand =>
    have hexecuting : c.status = .executing := executing_of_phase (case?_of_inHand inHand)
    exact absurd (hexecuting.symm.trans happroved) (by decide)
  -- all others move the case to another status
  | _ => cases happroved

/-- **What approves a case** is a diagnosis of it that goes through. -/
theorem Txn.approval {h : List Event} {db : Db} {sts : List Stmt} {caseId : Uuid} {c' : RecoveryCase}
    (htxn : Txn h db sts) (hchecked : Store.checkAll sts db = none)
    (hrow : (Store.applyAll sts db).recoveryCases.get? caseId = some c')
    (happroved : c'.status = .approved)
    (hbefore : ∀ c, db.recoveryCases.get? caseId = some c → c.status ≠ .approved) :
    ∃ d settings now, sts = Diagnosis.stmts d ∧ d.before.id = caseId ∧ d.next.1 = .approved ∧
      d.config = getPolicyConfig settings ∧ d.reads settings now <+: h := by
  -- what turns one case into another one turns this case, for it is approved after it
  have hturned : ∀ {c c'' : RecoveryCase}, db.recoveryCases.get? c.id = some c →
      (∀ id, (Store.applyAll sts db).recoveryCases.get? id =
        if c.id = id then some c'' else db.recoveryCases.get? id) → c.id = caseId ∧ c'' = c' := by
    intro c c'' hc hcases
    have hafter := hcases caseId
    rw [hrow] at hafter
    by_cases hid : c.id = caseId
    · rw [if_pos hid] at hafter
      exact ⟨hid, (Option.some.inj hafter).symm⟩
    · rw [if_neg hid] at hafter
      exact absurd happroved (hbefore c' hafter.symm)
  rcases htxn.diagnosis_or_undiagnostic with hd | hundiagnostic
  · cases hd with
    | turnedAway d known status ineligible reads =>
      have hrequest : ∀ st ∈ [d.requestStmt], st.table ≠ .recoveryCases := by
        simp [Diagnosis.requestStmt, auditStmt, Stmt.table]
      have hseen := known.caseSeen.of_checkAll hrequest hchecked
      obtain ⟨-, rfl⟩ := hturned hseen (d.turns_turnAwayStmts db hseen)
      cases happroved
    | diagnosed d known status admitted settings now config reads =>
      have hseen := Diagnosis.row_of_stmts known.caseSeen hchecked
      obtain ⟨hid, rfl⟩ := hturned hseen (d.turns_stmts db hseen)
      exact ⟨d, settings, now, rfl, hid, happroved, config, reads⟩
  · cases htxn.caseEffect hchecked with
    | same quiet cases =>
      rw [cases] at hrow
      exact absurd happroved (hbefore c' hrow)
    | opened rows quiet cases fresh =>
      rw [cases, Table.get?_append, Option.or_eq_some_iff] at hrow
      rcases hrow with hold | ⟨-, hnew⟩
      · exact absurd happroved (hbefore c' hold)
      · obtain ⟨payment, id, createdAt, rfl, -⟩ := fresh c' (Table.mem_of_get? hnew)
        cases happroved
    | moved c c'' step row cases =>
      obtain ⟨-, rfl⟩ := hturned row cases
      exact absurd hundiagnostic (step.diagnostic_of_approved happroved)

/-! ### Whole runs -/

/-- **The recovery window over whole runs.** A commit that makes a case approved is that of
a diagnosis, and the last time this has read before the policy was asked is within the
window of the configuration it has read. And an execution that calls the provider has
claimed its case after a check that is within the window in the same sense. -/
theorem withinWindow_of_reachable {w : World} (hw : Reachable w) :
    (∀ {newer older : History} {t : Tid} {sts : List Stmt} {caseId : Uuid} {c' : RecoveryCase},
      w.shared.history = newer ++ (t, .committed sts) :: older →
      (Store.applyAll sts older.replay).recoveryCases.get? caseId = some c' →
      c'.status = .approved →
      (∀ c, older.replay.recoveryCases.get? caseId = some c → c.status ≠ .approved) →
      ∃ d settings now, sts = Diagnosis.stmts d ∧ d.before.id = caseId ∧
        d.reads settings now <+: older.own t ∧
        settings.WithinWindow (d.now - d.before.createdAt)) ∧
    ∀ {newer older : History} {t : Tid} {caseId : Uuid} {request : CreatePaymentLinkRequest}
      {made : Option PaymentLinkSnapshot} {answer : Except ProviderException PaymentLinkSnapshot},
      w.shared.history = newer ++ (t, .created caseId request made answer) :: older →
      ∃ (x : Execution) (es es' : List Event), x.recoveryCase.id = caseId ∧
        older.own t = es ++ .committed x.claimStmts :: (x.reads ++ es') ∧
        x.settings.WithinWindow (x.now - x.recoveryCase.createdAt) := by
  have hl := Reachable.lawful hw
  refine ⟨fun {newer older t sts caseId c'} h hrow happroved hbefore => ?_,
    fun {newer older t caseId request made answer} h => ?_⟩
  · rw [h] at hl
    obtain ⟨-, htxn, hchecked⟩ := hl.of_append.cons_inv
    obtain ⟨d, settings, now, hsts, hid, hnext, hconfig, hreads⟩ :=
      Txn.approval htxn (hchecked _ rfl) hrow happroved hbefore
    exact ⟨d, settings, now, hsts, hid, hreads, Diagnosis.withinWindow hnext hconfig⟩
  · rw [h] at hl
    obtain ⟨hlawful, ⟨-, x, attempt, hcall⟩, -⟩ := hl.of_append.cons_inv
    obtain ⟨es, es', hown⟩ := hcall.reads
    rw [List.append_assoc, List.cons_append] at hown
    exact ⟨x, es, es', hcall.onBehalf.symm, hown.symm,
      wholeDays_le_iff.mp (hlawful.authorized hcall).2.window⟩

set_option maxRecDepth 10000 in
theorem withinWindow_of_reachable_executed :
    ∃ t x, (t, .committed (Execution.claimStmts x)) ∈ (World.empty.after Sample.executed).shared.history ∧
      x.recoveryCase.id = 3 ∧ x.settings.WithinWindow (x.now - x.recoveryCase.createdAt) := by
  have hcall : (World.empty.after Sample.executed).shared.history.any
      (fun p => p.2.isCall 3) = true := by decide +kernel
  obtain ⟨⟨t, e⟩, hmem, he⟩ := List.any_eq_true.mp hcall
  obtain ⟨request, made, answer, rfl⟩ := Event.exists_of_isCall he
  obtain ⟨newer, older, hsplit⟩ := List.append_of_mem hmem
  obtain ⟨x, es, es', hid, hown, hwithin⟩ :=
    (withinWindow_of_reachable (World.reachable_after Sample.executed)).2 hsplit
  refine ⟨t, x, ?_, hid, hwithin⟩
  have hclaim : (t, .committed x.claimStmts) ∈ older := History.mem_own.mp (by rw [hown]; simp)
  rw [hsplit]
  exact List.mem_append_right _ (List.mem_cons_of_mem _ hclaim)

namespace Sample

/-- One hour after the window of the sample settings. -/
def late : Time := 14 * microsecondsPerDay + 3_600_000_000

/-- The inputs of an operation, all read at one time. -/
def readAt (time : Time) (is : List Input) : List Input := is.map fun
  | .time _ => .time time
  | i => i

/-- A case opened at the time 0, diagnosed and executed one hour after the window. -/
def overdue : List Action :=
  alone 0 (.ingest request "c") (ingest 1 2 3) ++
    alone 1 (.diagnose 3 "c") (readAt late (diagnose true .sendPaymentLink)) ++
    alone 2 (.execute 3 "c") (readAt late (execute 10 11 12 "L"))

end Sample

/-- The event is a reading of the clock no earlier than `time`, if it is one. -/
def Event.notBefore (time : Time) : Event → Bool
  | .clock now => time ≤ now
  | _ => true

set_option maxRecDepth 10000 in
/-- **One hour after the window** a case is approved, and its link is created: the case is of
the time 0 and the window is 14 days, and neither operation has read an earlier time. -/
theorem overdue_executed : Reachable (World.empty.after Sample.overdue) ∧
    Sample.settings.policyMaxRecoveryWindowDays * microsecondsPerDay < Sample.late ∧
    (World.empty.after Sample.overdue).shared.db.recoveryCases.map
      (fun c => (c.id, c.status, c.createdAt)) = [(3, .executing, 0)] ∧
    ((World.empty.after Sample.overdue).shared.history.all fun p =>
      p.1 = 0 || p.2.notBefore Sample.late) = true ∧
    ((World.empty.after Sample.overdue).shared.history.any fun p => p.2.isCall 3) = true := by
  refine ⟨World.reachable_after _, by decide, ?_, ?_, ?_⟩
  · decide +kernel
  · decide +kernel
  · decide +kernel

end RecoverAI
