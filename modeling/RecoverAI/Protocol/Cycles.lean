import RecoverAI.Protocol.Transactions

/-!
# The record of a cycle

What a recovery cycle has done is read off the record of its operation: a segment of the
record for each case it handled (`Handles`), between the reads that selected the cases
(`CycleRun`). The report says what the segments say.
-/

namespace RecoverAI

open Interleave

/-! ### Reading events -/

/-- The link a statement records. -/
def Stmt.linkInsert? : Stmt → Option RecoveryPaymentRequest
  | .insertPaymentRequest l => some l
  | _ => none

/-- The case a statement updates. -/
def Stmt.caseUpdated? : Stmt → Option Uuid
  | .updateCase before _ => some before.id
  | _ => none

/-- The select of the cases in one status. -/
structure StatusRead where
  status : RecoveryCaseStatus
  limit : ℕ
  rows : List RecoveryCase

/-- What a cycle may do with a case. -/
inductive CycleStep where
  | diagnosis | execution
  deriving DecidableEq

namespace Event

/-- The links an event records. -/
def links : Event → List RecoveryPaymentRequest
  | .committed sts => sts.filterMap Stmt.linkInsert?
  | _ => []

/-- The cases an event updates. -/
def cases : Event → List Uuid
  | .committed sts => sts.filterMap Stmt.caseUpdated?
  | _ => []

/-- Cases are selected by their status. -/
def statusRead? : Event → Option StatusRead
  | .selected (.casesByStatus status limit) rows => some ⟨status, limit, rows⟩
  | _ => none

/-- A case is loaded for one of the steps. -/
def begins? : Event → Option (CycleStep × Uuid)
  | .selected (.caseForDiagnosis caseId) _ => some (.diagnosis, caseId)
  | .selected (.caseForExecution caseId) _ => some (.execution, caseId)
  | _ => none

/-- A diagnosis begins. -/
def diagnoses? : Event → Option Uuid
  | .selected (.caseForDiagnosis caseId) _ => some caseId
  | _ => none

/-- A diagnosis that was under way is over: it has committed or failed, or something else
begins. -/
def concludes : Event → Bool
  | .committed _ => true
  | .refused _ _ => true
  -- A diagnosis that raised has no commit: it is over when its case is looked up again, or loaded
  -- for an execution.
  | .selected (.caseForExecution _) _ => true
  | .selected (.recoveryCase _) _ => true
  | _ => false

/-- A method of the provider is called. -/
def callsProvider : Event → Bool
  | .created _ _ _ _ => true
  | .found _ _ => true
  | _ => false

/-- What a step of a case may leave in the record once it has begun, or what is left outside
of any step (`none`): no other case is touched. -/
structure In (scope : Option Uuid) (e : Event) : Prop where
  statusRead : e.statusRead? = none
  cases : ∀ id ∈ e.cases, scope = some id
  begins : e.begins? = none

/-- The same, if nothing is called and no link recorded. -/
structure Calm (scope : Option Uuid) (e : Event) : Prop extends e.In scope where
  calls : e.callsProvider = false
  links : e.links = []

/-- What the handling of one case may leave in the record. -/
structure Of (autoExecute : Bool) (caseId : Uuid) (e : Event) : Prop where
  statusRead : e.statusRead? = none
  calls : autoExecute = false → e.callsProvider = false
  cases : ∀ id ∈ e.cases, id = caseId
  begins : ∀ step id, e.begins? = some (step, id) → id = caseId

/-- What a step may leave, the handling of its case may leave. -/
theorem In.of {autoExecute : Bool} {caseId : Uuid} {e : Event} (h : e.In (some caseId))
    (hcalls : autoExecute = false → e.callsProvider = false) :
    e.Of autoExecute caseId where
  statusRead := h.statusRead
  calls := hcalls
  -- The scope is the case itself, so an update within it is one of the case.
  cases := fun id hid => (Option.some.inj (h.cases id hid)).symm
  begins := by
    intro step id he
    rw [h.begins] at he
    cases he

/-- And so what calls nothing. -/
theorem Calm.of {autoExecute : Bool} {caseId : Uuid} {e : Event} (h : e.Calm (some caseId)) :
    e.Of autoExecute caseId :=
  h.toIn.of fun _ => h.calls

end Event

/-- The case a diagnosis is under way for. -/
def diagnosing : List Event → Option Uuid
  | [] => none
  | e :: h =>
    match e.diagnoses? with
    | some caseId => some caseId
    -- The newest event that decides the matter does: a load puts a case under way, whatever came
    -- before.
    | none => if e.concludes then none else diagnosing h

/-- With no diagnosis under way, only a select begins one. -/
theorem diagnosing_cons_eq_none {e : Event} {h : List Event} (he : e.diagnoses? = none)
    (hh : diagnosing h = none) : diagnosing (e :: h) = none := by
  rw [diagnosing, he]
  simp only
  split
  · rfl
  · exact hh

/-- An event that concludes leaves no diagnosis under way. -/
theorem diagnosing_cons_of_concludes {e : Event} {h : List Event} (he : e.concludes = true)
    (hn : e.diagnoses? = none) : diagnosing (e :: h) = none := by
  rw [diagnosing, hn]
  exact if_pos he

/-- An event that begins no step begins no diagnosis. -/
theorem Event.diagnoses?_eq_none {e : Event} (h : e.begins? = none) : e.diagnoses? = none := by
  cases e with
  | selected q r => cases q <;> first | rfl | cases h
  | _ => rfl

/-- The links recorded in a record, newest first. -/
def linksOf (h : List Event) : List RecoveryPaymentRequest := h.flatMap Event.links

@[simp] theorem linksOf_cons (e : Event) (h : List Event) :
    linksOf (e :: h) = e.links ++ linksOf h := rfl

@[simp] theorem linksOf_append (h h' : List Event) :
    linksOf (h ++ h') = linksOf h ++ linksOf h' := List.flatMap_append ..

/-! ### Segments -/

/-- From `h` to `h'` only events with `P` were added. -/
def Adds (P : Event → Prop) (h h' : List Event) : Prop := ∃ added, h' = added ++ h ∧ ∀ e ∈ added, P e

namespace Adds

variable {P Q : Event → Prop} {h h' h'' : List Event} {e : Event}

/-- No event is added. -/
theorem refl (h : List Event) : Adds P h h := ⟨[], rfl, by simp⟩

/-- Segments follow each other. -/
theorem trans (h₁ : Adds P h h') (h₂ : Adds P h' h'') : Adds P h h'' := by
  obtain ⟨added, rfl, hadded⟩ := h₁
  obtain ⟨added', rfl, hadded'⟩ := h₂
  -- The record grows at its front: the later segment comes first.
  refine ⟨added' ++ added, (List.append_assoc ..).symm, fun e he => ?_⟩
  exact (List.mem_append.mp he).elim (hadded' e) (hadded e)

/-- One event more. -/
theorem cons (h₁ : Adds P h h') (he : P e) : Adds P h (e :: h') := by
  obtain ⟨added, rfl, hadded⟩ := h₁
  exact ⟨e :: added, rfl, List.forall_mem_cons.mpr ⟨he, hadded⟩⟩

/-- A segment is one of a wider kind. -/
theorem mono (hPQ : ∀ e, P e → Q e) (h₁ : Adds P h h') : Adds Q h h' := by
  obtain ⟨added, rfl, hadded⟩ := h₁
  exact ⟨added, rfl, fun e he => hPQ e (hadded e he)⟩

/-- Nor does a segment in which no step begins. -/
theorem diagnosing_eq_none {scope : Option Uuid} (h₁ : Adds (Event.In scope) h h')
    (hh : diagnosing h = none) : diagnosing h' = none := by
  obtain ⟨added, rfl, hadded⟩ := h₁
  -- By induction on the segment, oldest event first: none of its events begins a step.
  induction added with
  | nil => exact hh
  | cons e added ih =>
    have hadded := List.forall_mem_cons.mp hadded
    exact diagnosing_cons_eq_none (Event.diagnoses?_eq_none hadded.1.begins) (ih hadded.2)

/-- A calm segment records no link. -/
theorem linksOf_eq {scope : Option Uuid} (h₁ : Adds (Event.Calm scope) h h') :
    linksOf h' = linksOf h := by
  obtain ⟨added, rfl, hadded⟩ := h₁
  have hnil : linksOf added = [] := List.flatMap_eq_nil_iff.mpr fun e he => (hadded e he).links
  rw [linksOf_append, hnil, List.nil_append]

end Adds

/-! ### One case -/

/-- The transactions that conclude a step of a case, and where they leave the case. -/
inductive Leaves : CycleStep → List Stmt → Uuid → RecoveryCaseStatus → Prop
  | turnedAway (d : Diagnosis) : Leaves .diagnosis d.turnAwayStmts d.before.id .ineligible
  | diagnosed (d : Diagnosis) : Leaves .diagnosis d.stmts d.before.id d.next.1
  | withheld (x : Execution) (reason : String) (t : Time) :
      Leaves .execution (x.withholdStmts reason t) x.recoveryCase.id .escalated
  | recorded (c : RecoveryCase) (attempt : RecoveryAttempt) (link : PaymentLinkSnapshot) (id : Uuid)
      -- The commit that records the link leaves the case executing: it is recovered, or fails, by
      -- a delivery.
      (completedAt : Time) (correlationId : String) (t : Time) (executing : c.status = .executing) :
      Leaves .execution (recordStmts c attempt link id completedAt correlationId t) c.id .executing
  | gaveUp (c : RecoveryCase) (attempt : RecoveryAttempt) (category : ProviderFailureCategory)
      (message reason correlationId : String) (completedAt t : Time) :
      Leaves .execution (giveUpStmts c attempt category message reason correlationId completedAt t)
        c.id .escalated

/-- How the segment of a case ends: with the transaction that concludes it or, after a
domain error, with a look at where the case is. -/
inductive Ends (o : CycleCaseOutcome) : List Event → Prop
  | through (step : CycleStep) (sts : List Stmt) (h : List Event) (error : o.error = none)
      (leaves : Leaves step sts o.recoveryCaseId o.finalStatus) : Ends o (.committed sts :: h)
  -- After a domain error the case is looked up once more, and a case that is gone is reported as
  -- DISCOVERED.
  | failed (found : Option RecoveryCase) (h : List Event) (error : o.error.isSome)
      (status : o.finalStatus = (found.map RecoveryCase.status).getD .discovered) :
      Ends o (.selected (.recoveryCase o.recoveryCaseId) found :: h)

/-- **What a cycle has done with one case**, and has left in a segment of its record. -/
structure Handles (autoExecute : Bool) (o : CycleCaseOutcome) (segment : List Event) : Prop where
  events : ∀ e ∈ segment, e.Of autoExecute o.recoveryCaseId
  ends : Ends o segment
  /-- A link is recorded if the case was executed, and for the case. -/
  links : if o.executed then ∃ l, linksOf segment = [l] ∧ l.recoveryCaseId = o.recoveryCaseId
    else linksOf segment = []
  approved : o.finalStatus = .approved → o.withheldReason.isSome ∨ o.error.isSome

/-! ### A whole cycle -/

namespace StatusRead

variable (r : StatusRead)

/-- The select as it stands in a record. -/
def event : Event := .selected (.casesByStatus r.status r.limit) r.rows

/-- The cases it has found, in the order of the rows. -/
def ids : List Uuid := r.rows.map RecoveryCase.id

end StatusRead

/-- The executions a cycle may still make after the outcomes of its step 2. -/
def CycleBudget.remaining (budget : CycleBudget) (processed : List CycleCaseOutcome) : ℕ :=
  budget.maxExecute - processed.countP fun o => o.executed

/-- **Step 3 of a cycle**: what it has read, if it gets that far, and which outcomes follow. -/
inductive Drains (budget : CycleBudget) (processed : List CycleCaseOutcome) :
    Option StatusRead → List CycleCaseOutcome → Prop
  | skipped (no : ¬ (budget.autoExecute ∧ budget.remaining processed > 0)) :
      Drains budget processed none []
  | drained (read : StatusRead) (drained : List CycleCaseOutcome)
      (autoExecute : budget.autoExecute = true) (status : read.status = .approved)
      -- A row for each case of step 2 is selected on top of what is left, since those cases are
      -- taken out again below.
      (limit : read.limit = budget.remaining processed +
        (processed.map CycleCaseOutcome.recoveryCaseId).eraseDups.length)
      (backlog : drained.map CycleCaseOutcome.recoveryCaseId =
        (read.ids.filter fun id => id ∉ processed.map CycleCaseOutcome.recoveryCaseId).take
          (budget.remaining processed))
      (diagnosed : ∀ o ∈ drained, o.diagnosed = false) :
      Drains budget processed (some read) drained

/-- **The record of a cycle that has returned its outcomes**: the discovery, the reads of the
candidates, a segment for each of them, the read of the backlog, a segment for each case in it,
and the end. Segments are what `P` says of their outcomes, and around them there are only events
with `A`. -/
structure CycleLayout (P : CycleCaseOutcome → List Event → Prop) (A : Event → Prop)
    (budget : CycleBudget) (outcomes : List CycleCaseOutcome) (h : List Event) where
  (discovery closing : List Event)
  reads : List StatusRead
  (processed drained : List CycleCaseOutcome)
  (processing draining : List (List Event))
  backlogRead : Option StatusRead
  -- Newest first: the closing events, the drained cases in reverse, the read of the backlog, the
  -- processed cases in reverse, the reads of the candidates, and the discovery.
  record : h = closing ++ (draining.reverse.flatten ++ ((backlogRead.map StatusRead.event).toList ++
    (processing.reverse.flatten ++ ((reads.map StatusRead.event).reverse ++ discovery))))
  around : ∀ e ∈ discovery ++ closing, A e
  statuses : reads.map StatusRead.status <+: readyForDiagnosis
  candidates : processed.map CycleCaseOutcome.recoveryCaseId = reads.flatMap StatusRead.ids
  processes : List.Forall₂ P processed processing
  drains : List.Forall₂ P drained draining
  backlog : Drains budget processed backlogRead drained
  outcomes_eq : outcomes = processed ++ drained

/-- **The record of a cycle that has returned its report.** -/
structure CycleRun (budget : CycleBudget) (report : RecoveryCycleReport) (h : List Event)
    extends CycleLayout (Handles budget.autoExecute) (Event.Calm none) budget report.outcomes h where
  diagnosedLe : processed.length ≤ budget.maxDiagnose
  -- The backlog takes no more than what is left of the budget, so the bound is on step 2 alone.
  executedLe : processed.countP (fun o => o.executed) ≤
    if budget.autoExecute then budget.maxExecute else 0
  discoveredLe : report.casesDiscovered ≤ budget.maxDiscover
  reported : ∃ cycleId startedAt finishedAt, report = cycleReport cycleId startedAt finishedAt
    budget.autoExecute report.casesDiscovered (processed ++ drained)

/-- A cycle with this record may call the provider: it executes, and has budget left. -/
def Within (h : List Event) : Prop := ∀ budget correlationId,
  .started (.cycle budget correlationId) ∈ h →
    budget.autoExecute = true ∧ (linksOf h).length < budget.maxExecute

end RecoverAI
