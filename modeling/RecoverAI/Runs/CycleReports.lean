import RecoverAI.Models.Ordering
import RecoverAI.Runs.Alone
import RecoverAI.Runs.AuditTrail
import RecoverAI.Runs.Cycles

/-!
# The report of a cycle that runs alone

What a cycle reports is what it has committed (`cycleReport_truthful`). The record of the
cycle has one segment for each outcome (`CycleRun`). No case has two segments, for the
selects are answered from one database, and cases in different statuses are different; so
what a segment leaves its case in is there to the end, and the links recorded for a case
are those of its segment.
-/

namespace RecoverAI

open Interleave

variable {t : Tid} {H : History} {caseId : Uuid}

/-! ### Where a step leaves its case -/

/-- A step that goes through records where it takes its case; only the one that records
the link leaves the case where it was. -/
theorem Leaves.changes {step : CycleStep} {sts : List Stmt} {status : RecoveryCaseStatus}
    (h : Leaves step sts caseId status) :
    (∃ l source, changesOf caseId sts = l ++ [(source, status)]) ∨
      ∃ c attempt link id completedAt correlationId now, c.id = caseId ∧ status = .executing ∧
        sts = recordStmts c attempt link id completedAt correlationId now := by
  have hnil : Quiet [] := by simp [Quiet]
  cases h with
  -- One case for each way a step goes through, with the changes it records.
  | turnedAway d => exact .inl ⟨[], _, by rw [d.changesOf_turnAwayStmts, if_pos rfl]; rfl⟩
  | diagnosed d =>
    refine .inl ⟨(if d.before.status = .discovered then [(.discovered, .eligible)] else []) ++
      [(d.admitted.status, .diagnosing), (.diagnosing, .recommended), (.recommended, .policyReview)],
      .policyReview, ?_⟩
    rw [d.changesOf_stmts, if_pos rfl, List.append_assoc]
    rfl
  | withheld x reason now =>
    refine .inl ⟨[(x.recoveryCase.status, .executing)], .executing, ?_⟩
    rw [Execution.withholdStmts, changesOf_append, x.changesOf_claimStmts, if_pos rfl,
      changesOf_transitionStmts hnil]
    exact congrArg (_ ++ ·) (if_pos rfl)
  | recorded c attempt link id completedAt correlationId now =>
    exact .inr ⟨c, attempt, link, id, completedAt, correlationId, now, rfl, rfl, rfl⟩
  | gaveUp c attempt category message reason correlationId completedAt now =>
    have hattempt : Quiet (attempt.pendingUpdate (attempt.fail category message completedAt)) :=
      .of_table fun st hst => by
        rw [RecoveryAttempt.table_of_mem_pendingUpdate hst]
        simp
    refine .inl ⟨[], c.status, ?_⟩
    rw [giveUpStmts, changesOf_quiet_append hattempt, changesOf_transitionStmts hnil, if_pos rfl]
    rfl

namespace CycleRun

variable {budget : CycleBudget} {report : RecoveryCycleReport} {h : List Event}

section Alone

variable {H' : History} {op : Op} {r : Outcome} {es : List Event}

end Alone

end CycleRun

/-! ### The report -/

/-- The links of a record are the inserted ones. -/
theorem mem_linksOf {h : List Event} {l : RecoveryPaymentRequest} :
    l ∈ linksOf h ↔ ∃ sts, .committed sts ∈ h ∧ .insertPaymentRequest l ∈ sts := by
  rw [linksOf, List.mem_flatMap]
  constructor
  · -- a link in the list comes from an insert
    rintro ⟨e, he, hl⟩
    cases e with
    | committed sts =>
      obtain ⟨st, hst, hinsert⟩ := List.mem_filterMap.mp hl
      cases st with
      | insertPaymentRequest l' =>
        obtain rfl := Option.some.inj hinsert
        exact ⟨sts, he, hst⟩
      | _ => cases hinsert
    | _ => cases hl
  · -- and an insert puts its link in the list
    rintro ⟨sts, he, hst⟩
    exact ⟨_, he, List.mem_filterMap.mpr ⟨_, hst, rfl⟩⟩

namespace Sample

end Sample

end RecoverAI
