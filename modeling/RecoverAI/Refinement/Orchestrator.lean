import RecoverAI.Refinement.Diagnosis
import RecoverAI.Refinement.Execution
import RecoverAI.Refinement.Ingestion

/-!
# The recovery cycle keeps the protocol

A cycle is a sequence of services on one session. Each of them leaves nothing in hand
and nothing flushed when it returns or raises a domain error, so the next one starts
as if it were alone; any other exception ends the cycle.
-/

namespace RecoverAI

open Interleave

variable {t : Tid} {p : List Stmt} {h h₀ : List Event} {F : List Fact} {s : State}
  {correlationId : String}

/-- The cycle `budget` goes on, with `remaining` executions left. -/
structure Cycling (budget : CycleBudget) (correlationId : String) (remaining : ℕ) (h : List Event) :
    Prop extends Resumes [.started (.cycle budget correlationId)] h where
  spent : budget.autoExecute = true → (linksOf h).length + remaining = budget.maxExecute

namespace Cycling

variable {budget : CycleBudget} {remaining : ℕ}

/-- The record of a cycle names the cycle alone. -/
theorem eq_of_started (hc : Cycling budget correlationId remaining h) {op : Op}
    (hop : .started op ∈ h) : op = .cycle budget correlationId := by
  have hmem := hc.started op hop
  rw [List.mem_singleton, Event.started.injEq] at hmem
  exact hmem

/-- It does name it. -/
theorem mem (hc : Cycling budget correlationId remaining h) :
    .started (.cycle budget correlationId) ∈ h :=
  hc.suffix.subset (List.mem_singleton_self _)

/-- Between two cases, no diagnosis is under way. -/
theorem between (hc : Cycling budget correlationId remaining h) : Between h where
  not_started := fun event correlationId hst => by cases hc.eq_of_started hst
  closed := hc.closed rfl

/-- With executions left, a cycle that executes may call the provider. -/
theorem within (hc : Cycling budget correlationId remaining h) (hauto : budget.autoExecute = true)
    (hleft : 0 < remaining) : Within h := by
  intro budget' correlationId' hst
  obtain ⟨rfl, -⟩ := Op.cycle.inj (hc.eq_of_started hst)
  -- What was spent and what is left make up the budget, so one link more is within it.
  have hspent := hc.spent hauto
  exact ⟨hauto, by omega⟩

/-- A select that begins no diagnosis. -/
theorem selected (hc : Cycling budget correlationId remaining h) (q : Query) (r : q.Result)
    (hq : (Event.selected q r).diagnoses? = none) :
    Cycling budget correlationId remaining (.selected q r :: h) :=
  ⟨hc.toResumes.selected q r hq, hc.spent⟩

/-- A segment without links. -/
theorem proceed {h' : List Event} (hc : Cycling budget correlationId remaining h)
    (hr : Resumes h h') (hlinks : linksOf h' = linksOf h) :
    Cycling budget correlationId remaining h' :=
  ⟨hc.toResumes.trans hr, by rw [hlinks]; exact hc.spent⟩

end Cycling

/-- What happens when an exception ends the cycle. -/
abbrev OnFatal (t : Tid) (budget : CycleBudget) (correlationId : String) (F : List Fact)
    (K : Raised → Prog sig Outcome) : Prop :=
  ∀ e p h s, Grows [.started (.cycle budget correlationId)] h → (phase h).MayEnd →
    Here t p h F s → Follows t (K e) s

/-! ### Domain errors of one case -/

section Catch

variable {α : Type}

/-- What `except RecoverAIError` makes of a result. -/
def sorted : Except Raised (Except RecoverAIError α) → Except Raised (Except RecoverAIError α)
  -- Only a domain error is taken for a result.
  | .error (.recoverAI e) => .ok (.error e)
  | r => r

/-- A continuation behind `except RecoverAIError`. -/
def caught (K : Except Raised (Except RecoverAIError α) → Prog sig Outcome) :
    Except Raised α → Prog sig Outcome
  | .ok a => K (.ok (.ok a))
  | .error (.recoverAI e) => K (.ok (.error e))
  | .error e => K (.error e)

/-- A service whose domain errors are caught, followed by the rest. -/
theorem run_catch_bind (x : Service α)
    (K : Except Raised (Except RecoverAIError α) → Prog sig Outcome) :
    (catchRecoverAI x).run >>= K = x.run >>= caught K := by
  -- The handler sorts the results: what it does not take it raises again.
  have hmap : (catchRecoverAI x).run >>= K =
      ((fun a => Except.ok a) <$> x).run >>= fun r => K (sorted r) := by
    rw [catchRecoverAI, run_tryCatch_bind]
    congr 1
    funext r
    cases r with
    | ok a => rfl
    | error e => cases e <;> rfl
  rw [hmap, run_map_bind]
  congr 1
  funext r
  cases r with
  | ok a => rfl
  | error e => cases e <;> rfl

end Catch

/-! ### One case -/

section Case

variable {budget : CycleBudget} {remaining : ℕ} {caseId : Uuid}

/-- The executions left after an outcome. -/
def CycleCaseOutcome.left (o : CycleCaseOutcome) (remaining : ℕ) : ℕ :=
  if o.executed then remaining - 1 else remaining

/-- A cycle has handled `caseId` since the record `h`. -/
structure HandledCase (budget : CycleBudget) (correlationId : String) (remaining : ℕ) (caseId : Uuid)
    (h : List Event) (o : CycleCaseOutcome) (segment h' : List Event) : Prop where
  record : h' = segment ++ h
  caseId : o.recoveryCaseId = caseId
  handles : Handles budget.autoExecute o segment
  cycling : Cycling budget correlationId (o.left remaining) h'
  budgeted : o.executed = true → 0 < remaining

/-- The continuation after a case. -/
abbrev OnCase (t : Tid) (budget : CycleBudget) (correlationId : String) (remaining : ℕ)
    (caseId : Uuid) (h : List Event) (F : List Fact)
    (K : Except Raised CycleCaseOutcome → Prog sig Outcome) : Prop :=
  ∀ o segment h' s', HandledCase budget correlationId remaining caseId h o segment h' →
    Here t [] h' F s' → Follows t (K (.ok o)) s'

/-- The look at where a case is; a case that is not there counts as DISCOVERED. -/
theorem follows_currentStatus {K : Except Raised RecoveryCaseStatus → Prog sig Outcome}
    (hs : Here t [] h F s)
    (hk : ∀ (found : Option RecoveryCase) s',
      Here t [] (.selected (.recoveryCase caseId) found :: h) F s' →
      Follows t (K (.ok ((found.map RecoveryCase.status).getD .discovered))) s') :
    Follows t ((currentStatus caseId).run >>= K) s := by
  unfold currentStatus
  rw [run_bind_bind]
  refine follows_select hs (fun _ _ => rfl) fun ids s hs => ?_
  generalize Query.eval s.db ids (.recoveryCase caseId) = found at *
  cases found with
  | some c => exact hk (some c) s hs
  | none => exact hk none s hs

/-! ### Segments of one step -/

/-- What a step has left up to the transaction that concludes it. -/
def Went (step : CycleStep) (caseId : Uuid) (status : RecoveryCaseStatus)
    (added : List Event) : Prop :=
  ∃ sts rest, added = .committed sts :: rest ∧ Leaves step sts caseId status

namespace Went

variable {step : CycleStep} {status : RecoveryCaseStatus} {added : List Event} {begun : Event}

/-- The added part of a record that ends with the transaction. -/
theorem of_leaves {h₁ : List Event} (hrec : h = added ++ begun :: h₁)
    (hleaves : ∃ sts rest, h = .committed sts :: rest ∧ begun :: h₁ <:+ rest ∧
      Leaves step sts caseId status) : Went step caseId status added := by
  -- What is in front of the select is the transaction and what came before it.
  obtain ⟨sts, rest, rfl, ⟨front, rfl⟩, hl⟩ := hleaves
  rw [← List.cons_append] at hrec
  exact ⟨sts, front, (List.append_cancel_right hrec).symm, hl⟩

/-- The segment of a step that went through ends a case. -/
theorem ends {o : CycleCaseOutcome} (hw : Went step caseId status added)
    (hid : o.recoveryCaseId = caseId) (herror : o.error = none) (hstatus : o.finalStatus = status)
    (earlier : List Event) : Ends o (added ++ earlier) := by
  obtain ⟨sts, rest, rfl, hl⟩ := hw
  subst hid hstatus
  exact .through step sts (rest ++ earlier) herror hl

end Went

/-- What a cycle has done with a case before its execution: nothing, or a diagnosis that
went through. -/
structure Prior (h₁ : List Event) (caseId : Uuid) (before h : List Event) : Prop
    extends Resumes h₁ h where
  record : h = before ++ h₁
  events : ∀ autoExecute, ∀ e ∈ before, e.Of autoExecute caseId
  links : linksOf before = []

namespace Prior

/-- Nothing has been done with the case. -/
theorem refl (hidle : phase h = .idle) : Prior h caseId [] h where
  toResumes := .refl hidle
  record := rfl
  events := fun _ _ he => absurd he List.not_mem_nil
  links := rfl

/-- A diagnosis records no link. -/
theorem linksOf_eq {h₁ before : List Event} (hr : Prior h₁ caseId before h) :
    linksOf h = linksOf h₁ := by
  rw [hr.record, linksOf_append, hr.links, List.nil_append]

end Prior

/-- The select a step begins with, as part of a segment. -/
theorem Event.of_begins {autoExecute : Bool} {step : CycleStep} {q : Query} {r : q.Result}
    (hb : (Event.selected q r).begins? = some (step, caseId)) :
    (Event.selected q r).Of autoExecute caseId where
  statusRead := by cases q <;> first | rfl | cases hb
  calls := fun _ => rfl
  cases := by simp [Event.cases]
  begins := by
    intro step' id he
    rw [hb] at he
    exact (Prod.mk.inj (Option.some.inj he)).2.symm

/-- A diagnosis that returned, as a segment. -/
theorem Diagnosed.went {response : DiagnosisResponse} {loaded : Option CaseForDiagnosis}
    {h₁ : List Event}
    (hd : Diagnosed (.selected (.caseForDiagnosis caseId) loaded :: h₁) caseId response h) :
    ∃ added, Went .diagnosis caseId response.caseStatus added ∧
      Prior h₁ caseId (added ++ [.selected (.caseForDiagnosis caseId) loaded]) h := by
  -- What was added since the select is calm, and ends with the transaction.
  obtain ⟨added, hrec, hcalm⟩ := hd.adds
  have hwent : Went .diagnosis caseId response.caseStatus added := .of_leaves hrec hd.leaves
  -- The commit has concluded the diagnosis.
  have hclosed : diagnosing h = none := by
    obtain ⟨sts, rest, rfl, -, -⟩ := hd.leaves
    exact diagnosing_cons_of_concludes rfl rfl
  refine ⟨added, hwent, ⟨⟨?_, ?_⟩, hd.idle, fun _ => hclosed⟩, ?_, fun auto e he => ?_, ?_⟩
  · exact (List.suffix_cons _ _).trans hd.suffix
  · exact fun op hop => (List.mem_cons.mp (hd.started op hop)).resolve_left (by simp)
  · rw [hrec, List.append_assoc, List.singleton_append]
  · rcases List.mem_append.mp he with he | he
    · exact (hcalm e he).of
    · rw [List.mem_singleton.mp he]
      exact Event.of_begins rfl
  · have hlinks := hd.adds.linksOf_eq
    -- There is no link among the events added.
    rw [hrec, linksOf_append] at hlinks
    rw [linksOf_append, List.append_cancel_right (hlinks.trans (List.nil_append _).symm)]
    rfl

/-- The outcome of a case after a domain error. -/
def failedOutcome (caseId : Uuid) (diagnosed : Bool) (e : RecoverAIError)
    (found : Option RecoveryCase) : CycleCaseOutcome where
  recoveryCaseId := caseId
  finalStatus := (found.map RecoveryCase.status).getD .discovered
  diagnosed := diagnosed
  executed := false
  withheldReason := none
  error := some e

/-- After a domain error, the rest of the segment is a look at the status. -/
theorem HandledCase.of_error (diagnosed : Bool) (e : RecoverAIError) (found : Option RecoveryCase)
    {h₁ : List Event} (hc : Cycling budget correlationId remaining h₁) (hg : Grows h₁ h)
    (hidle : phase h = .idle) (hadds : Adds (Event.Of budget.autoExecute caseId) h₁ h)
    (hlinks : linksOf h = linksOf h₁) :
    ∃ segment, HandledCase budget correlationId remaining caseId h₁
      (failedOutcome caseId diagnosed e found) segment
      (.selected (.recoveryCase caseId) found :: h) := by
  -- What was added up to the error, and the look at the case on top.
  obtain ⟨added, rfl, hadded⟩ := hadds
  have hlook : Event.Of budget.autoExecute caseId (.selected (.recoveryCase caseId) found) :=
    ⟨rfl, fun _ => rfl, by simp [Event.cases], fun _ _ h => by cases h⟩
  -- the look at the case concludes whatever was under way
  have hr : Resumes h₁ (.selected (.recoveryCase caseId) found :: (added ++ h₁)) :=
    ⟨hg.cons (by simp), by rw [phase_cons, hidle]; rfl, fun _ => diagnosing_cons_of_concludes rfl rfl⟩
  have hc := hc.proceed hr hlinks
  refine ⟨.selected (.recoveryCase caseId) found :: added, rfl, rfl, ?_, hc, fun h => (by cases h)⟩
  refine ⟨?_, .failed found added rfl rfl, ?_, fun _ => .inr rfl⟩
  · exact List.forall_mem_cons.mpr ⟨hlook, hadded⟩
  · rw [linksOf_append] at hlinks
    exact List.append_cancel_right hlinks

/-- The outcome of a case that is left where its diagnosis has taken it. -/
theorem HandledCase.of_diagnosed {response : DiagnosisResponse} {loaded : Option CaseForDiagnosis}
    {reason : Option String} {h₁ : List Event} (hc : Cycling budget correlationId remaining h₁)
    (hd : Diagnosed (.selected (.caseForDiagnosis caseId) loaded :: h₁) caseId response h)
    (hreason : response.caseStatus = .approved → reason.isSome) :
    ∃ segment, HandledCase budget correlationId remaining caseId h₁
      (diagnosedOnly caseId response.caseStatus reason) segment h := by
  obtain ⟨added, hwent, hr⟩ := hd.went
  refine ⟨_, hr.record, rfl, ?_, hc.proceed hr.toResumes hr.linksOf_eq, nofun⟩
  exact
    { events := hr.events _
      ends := hwent.ends rfl rfl rfl _
      links := hr.links
      approved := fun he => .inl (hreason he) }

/-- The outcome of an execution that returned. -/
def executionOutcome (caseId : Uuid) (diagnosed : Bool) (execution : ExecutionResponse) :
    CycleCaseOutcome where
  recoveryCaseId := caseId
  finalStatus := execution.caseStatus
  diagnosed := diagnosed
  executed := execution.executed
  withheldReason := if execution.executed then none else execution.reason
  error := none

/-- An execution that returned, after what was done with the case before it. -/
theorem HandledCase.of_finished {response : ExecutionResponse} {diagnosed : Bool}
    {loaded : Option CaseForExecution} {h₁ before h' : List Event}
    (hc : Cycling budget correlationId remaining h₁) (hauto : budget.autoExecute = true)
    (hleft : 0 < remaining) (hr : Prior h₁ caseId before h)
    (hfin : Finished (.selected (.caseForExecution caseId) loaded :: h) caseId response h') :
    ∃ segment, HandledCase budget correlationId remaining caseId h₁
      (executionOutcome caseId diagnosed response) segment h' := by
  obtain ⟨added, hrec, hin⟩ := hfin.adds
  have hwent : Went .execution caseId response.caseStatus added := .of_leaves hrec hfin.leaves
  -- A link recorded in the segment is one of the case.
  have hadded : if response.executed then
      ∃ l, linksOf added = [l] ∧ l.recoveryCaseId = caseId else linksOf added = [] := by
    have hlinks := hfin.links
    rw [hrec, linksOf_append] at hlinks
    split_ifs at hlinks ⊢
    · obtain ⟨l, hl, hcase⟩ := hlinks
      rw [← List.singleton_append] at hl
      exact ⟨l, List.append_cancel_right hl, hcase⟩
    · exact List.append_cancel_right (hlinks.trans (List.nil_append _).symm)
  -- The execution, if it was one, is taken from the budget.
  have hcycling : Cycling budget correlationId
      ((executionOutcome caseId diagnosed response).left remaining) h' := by
    refine ⟨hc.toResumes.trans (hr.toResumes.trans ?_), fun _ => ?_⟩
    · exact ((Resumes.refl hr.idle).selected (.caseForExecution caseId) loaded rfl).trans hfin.toResumes
    have hspent := hc.spent hauto
    have hlinks := hfin.links
    rw [linksOf_cons, show Event.links _ = [] from rfl, List.nil_append, hr.linksOf_eq] at hlinks
    change (linksOf h').length + (if response.executed then remaining - 1 else remaining) = _
    split_ifs at hlinks ⊢
    · obtain ⟨l, hl, -⟩ := hlinks
      rw [hl, List.length_cons]
      omega
    · rw [hlinks]
      exact hspent
  let begun : Event := .selected (.caseForExecution caseId) loaded
  -- The segment is the execution, its select, and the diagnosis before it if there was one.
  have hwhole : h' = ((added ++ [begun]) ++ before) ++ h₁ := by
    rw [hrec, hr.record, List.append_assoc, List.append_assoc, List.singleton_append]
  refine ⟨(added ++ [begun]) ++ before, hwhole, rfl, ?_, hcycling, fun _ => hleft⟩
  refine ⟨fun e he => ?_, ?_, ?_, fun he => absurd he hfin.status⟩
  · rcases List.mem_append.mp he with he | he
    · rcases List.mem_append.mp he with he | he
      · exact (hin e he).of fun hno => by rw [hauto] at hno; cases hno
      · rw [List.mem_singleton.mp he]
        exact Event.of_begins rfl
    · exact hr.events _ e he
  · rw [List.append_assoc]
    exact hwent.ends rfl rfl rfl _
  · rw [linksOf_append, hr.links, List.append_nil, linksOf_append,
      show linksOf [begun] = [] from rfl, List.append_nil]
    exact hadded

/-- The execution of one case inside a cycle, after what has been done with it so far. -/
theorem follows_executeInCycle {diagnosed : Bool} {h₁ before : List Event}
    {caseCorrelationId : String} {K : Except Raised CycleCaseOutcome → Prog sig Outcome}
    (hc : Cycling budget correlationId remaining h₁) (hauto : budget.autoExecute = true)
    (hleft : 0 < remaining) (hr : Prior h₁ caseId before h) (hs : Here t [] h F s)
    (hk : ∀ o segment h' s', HandledCase budget correlationId remaining caseId h₁ o segment h' →
      o.diagnosed = diagnosed → Here t [] h' F s' → Follows t (K (.ok o)) s')
    (hf : OnFatal t budget correlationId F fun e => K (.error e)) :
    Follows t ((executeInCycle caseId caseCorrelationId diagnosed).run >>= K) s := by
  unfold executeInCycle
  rw [run_bind_bind, run_catch_bind]
  have hc' := hc.proceed hr.toResumes hr.linksOf_eq
  have := hc'.between
  have hbegun : ∀ loaded, Grows h _ := fun loaded =>
    (Grows.refl h).cons (e := .selected (.caseForExecution caseId) loaded) (by simp)
  refine follows_executeRecoveryCase hr.idle (hc'.within hauto hleft) hs
    (fun loaded response h' s hfin hs => ?_) fun loaded e p h' s hstale hst hs => ?_
  · -- The execution has returned.
    obtain ⟨segment, ho⟩ := HandledCase.of_finished hc hauto hleft hr hfin
    exact hk _ segment h' s ho rfl hs
  · cases e with
    | recoverAI e =>
      -- A domain error: within a cycle it has left nothing flushed.
      obtain rfl := hst.clean e rfl (List.any_eq_true.mpr ⟨_, List.mem_cons_of_mem _ hc'.mem, rfl⟩)
      have hadds : Adds (Event.Of budget.autoExecute caseId) h₁ h' := by
        have hbefore : Adds (Event.Of budget.autoExecute caseId) h₁ h :=
          ⟨before, hr.record, hr.events _⟩
        refine (hbefore.cons (Event.of_begins rfl)).trans (hst.adds.mono fun e he => ?_)
        exact he.of fun hno => by rw [hauto] at hno; cases hno
      have hgrows : Grows h₁ h' := hr.toGrows.trans ((hbegun loaded).trans hst.toGrows)
      have hlinks : linksOf h' = linksOf h₁ := hst.links.trans hr.linksOf_eq
      simp only [caught]
      rw [run_bind_bind]
      refine follows_currentStatus hs fun found s hs => ?_
      obtain ⟨segment, ho⟩ := HandledCase.of_error diagnosed e found hc hgrows
        (hst.idle (.inr ⟨e, rfl⟩)) hadds hlinks
      exact hk _ segment _ s ho rfl hs
    | staleData => exact absurd rfl hstale
    -- Anything else ends the cycle.
    | _ =>
      have hg := hc'.toGrows.trans ((hbegun loaded).trans hst.toGrows)
      exact hf _ p h' s hg hst.mayEnd hs

/-- `_process_case`. -/
theorem follows_processCase {K : Except Raised CycleCaseOutcome → Prog sig Outcome}
    (hc : Cycling budget correlationId remaining h) (hs : Here t [] h F s)
    (hk : OnCase t budget correlationId remaining caseId h F K)
    (hf : OnFatal t budget correlationId F fun e => K (.error e)) :
    Follows t ((processCase caseId correlationId budget.autoExecute remaining).run >>= K) s := by
  unfold processCase
  simp only []
  rw [run_bind_bind, run_catch_bind]
  have := hc.between
  have hbegun : ∀ loaded, Grows h _ := fun loaded =>
    (Grows.refl h).cons (e := .selected (.caseForDiagnosis caseId) loaded) (by simp)
  refine follows_diagnoseRecoveryCase hc.idle hs (fun loaded response h' s hd hs => ?_)
    fun loaded e h' G p s hG hstale hfails hs => ?_
  · -- an approved case goes on to its execution, if the cycle may execute
    simp only [caught]
    split_ifs with happroved hauto hbudget
    · -- The diagnosis has not approved it.
      refine Exists.elim (HandledCase.of_diagnosed hc hd fun he => absurd he happroved)
        fun segment ho => hk _ segment h' s ho hs
    · -- The cycle does not execute.
      refine Exists.elim (HandledCase.of_diagnosed hc hd fun _ => rfl)
        fun segment ho => hk _ segment h' s ho hs
    · -- The budget is used up.
      refine Exists.elim (HandledCase.of_diagnosed hc hd fun _ => rfl)
        fun segment ho => hk _ segment h' s ho hs
    · have hauto : budget.autoExecute = true := by simpa using hauto
      obtain ⟨_, -, hprior⟩ := hd.went
      exact follows_executeInCycle hc hauto (Nat.pos_of_ne_zero hbudget) hprior hs
        (fun o segment h' s ho _ hs => hk o segment h' s ho hs) hf
  · cases e with
    | recoverAI e =>
      -- A domain error, with nothing flushed.
      obtain rfl := hfails.clean e rfl (List.any_eq_true.mpr ⟨_, List.mem_cons_of_mem _ hc.mem, rfl⟩)
      have hcalm := hfails.adds
      have hadds : Adds (Event.Of budget.autoExecute caseId) h h' :=
        ((Adds.refl h).cons (Event.of_begins rfl)).trans (hcalm.mono fun _ he => he.of)
      simp only [caught]
      rw [run_bind_bind]
      refine follows_currentStatus hs fun found s hs => ?_
      obtain ⟨segment, ho⟩ := HandledCase.of_error false e found hc
        ((hbegun loaded).trans hfails.toGrows) hfails.idle hadds hcalm.linksOf_eq
      exact hk _ segment _ s ho (hs.forget hG)
    | staleData => exact absurd rfl hstale
    -- Anything else ends the cycle.
    | _ =>
      have hg := hc.toGrows.trans ((hbegun loaded).trans hfails.toGrows)
      exact hf _ p h' s hg (by rw [hfails.idle]; trivial) (hs.forget hG)

end Case

/-! ### The loops -/

section Loops

variable {budget : CycleBudget} {remaining : ℕ}

/-- The segment of the first case is the oldest. -/
theorem flatten_reverse_cons_append (segment : List Event) (segments : List (List Event)) :
    (segment :: segments).reverse.flatten ++ h = segments.reverse.flatten ++ (segment ++ h) := by
  rw [List.reverse_cons, List.flatten_append, List.flatten_singleton, List.append_assoc]

/-- Step 2 of a cycle, by induction on the candidates. -/
theorem follows_processCases {caseIds : List Uuid}
    {K : Except Raised (List CycleCaseOutcome × Nat) → Prog sig Outcome}
    (hc : Cycling budget correlationId remaining h) (hs : Here t [] h F s)
    (hk : ∀ (os : List CycleCaseOutcome) segments remaining' s',
      List.Forall₂ (Handles budget.autoExecute) os segments →
      os.map CycleCaseOutcome.recoveryCaseId = caseIds →
      os.countP (fun o => o.executed) + remaining' = remaining →
      Cycling budget correlationId remaining' (segments.reverse.flatten ++ h) →
      Here t [] (segments.reverse.flatten ++ h) F s' → Follows t (K (.ok (os, remaining'))) s')
    (hf : OnFatal t budget correlationId F fun e => K (.error e)) :
    Follows t ((processCases correlationId budget.autoExecute caseIds remaining).run >>= K) s := by
  induction caseIds generalizing h s remaining K with
  | nil => exact hk [] [] remaining s .nil rfl (Nat.zero_add _) hc hs
  | cons caseId caseIds ih =>
    unfold processCases
    rw [run_bind_bind]
    refine follows_processCase hc hs (fun o segment h' s ho hs => ?_) hf
    simp only []
    rw [run_bind_bind]
    refine ih ho.cycling hs (fun os segments remaining' s hall hids hcount hc hs => ?_) hf
    -- The segments of the later cases are in front of this one.
    rw [ho.record, ← flatten_reverse_cons_append] at hc hs
    refine hk (o :: os) (segment :: segments) remaining' s (.cons ho.handles hall) ?_ ?_ hc hs
    · rw [List.map_cons, ho.caseId, hids]
    · -- An outcome that was executed has used one of the executions left.
      have hbudgeted := ho.budgeted
      rw [List.countP_cons]
      split_ifs at hcount ⊢ with he
      · have hpos := hbudgeted he
        omega
      · omega

/-- The loop of step 3, by induction on the backlog, which is no longer than the budget. -/
theorem follows_drainBacklog {caseIds : List Uuid}
    {K : Except Raised (List CycleCaseOutcome) → Prog sig Outcome}
    (hc : Cycling budget correlationId remaining h) (hauto : budget.autoExecute = true)
    (hlength : caseIds.length ≤ remaining) (hs : Here t [] h F s)
    (hk : ∀ (os : List CycleCaseOutcome) segments remaining' s',
      List.Forall₂ (Handles budget.autoExecute) os segments →
      os.map CycleCaseOutcome.recoveryCaseId = caseIds →
      (∀ o ∈ os, o.diagnosed = false) →
      Cycling budget correlationId remaining' (segments.reverse.flatten ++ h) →
      Here t [] (segments.reverse.flatten ++ h) F s' → Follows t (K (.ok os)) s')
    (hf : OnFatal t budget correlationId F fun e => K (.error e)) :
    Follows t ((drainBacklog correlationId caseIds remaining).run >>= K) s := by
  induction caseIds generalizing h s remaining K with
  | nil => exact hk [] [] remaining s .nil rfl (by simp) hc hs
  | cons caseId caseIds ih =>
    unfold drainBacklog
    rw [List.length_cons] at hlength
    -- The backlog is within the budget, so the loop does not stop early.
    rw [run_ite_bind, if_neg (by omega), run_bind_bind, executeApprovedCase]
    refine follows_executeInCycle hc hauto (by omega) (.refl hc.idle) hs
      (fun o segment h' s ho hdiagnosed hs => ?_) hf
    simp only []
    rw [run_bind_bind]
    -- A case uses one of them at most.
    have hleft : caseIds.length ≤ o.left remaining := by
      unfold CycleCaseOutcome.left
      split <;> omega
    refine ih ho.cycling hleft hs (fun os segments remaining' s hall hids hnone hc hs => ?_) hf
    rw [ho.record, ← flatten_reverse_cons_append] at hc hs
    refine hk (o :: os) (segment :: segments) remaining' s (.cons ho.handles hall) ?_ ?_ hc hs
    · rw [List.map_cons, ho.caseId, hids]
    · exact List.forall_mem_cons.mpr ⟨hdiagnosed, hnone⟩

/-- The loop of `_cases_ready_for_diagnosis`, by induction on the statuses. -/
theorem follows_collectCases {limit : Nat} {statuses : List RecoveryCaseStatus}
    {collected : List Uuid} {K : Except Raised (List Uuid) → Prog sig Outcome}
    (hc : Cycling budget correlationId remaining h) (hs : Here t [] h F s)
    (hlimit : collected.length ≤ limit)
    (hk : ∀ (reads : List StatusRead) s',
      reads.map StatusRead.status <+: statuses →
      (collected ++ reads.flatMap StatusRead.ids).length ≤ limit →
      Cycling budget correlationId remaining ((reads.map StatusRead.event).reverse ++ h) →
      Here t [] ((reads.map StatusRead.event).reverse ++ h) F s' →
      Follows t (K (.ok (collected ++ reads.flatMap StatusRead.ids))) s') :
    Follows t ((collectCases limit statuses collected).run >>= K) s := by
  -- The loop may stop with what it has collected.
  have hnone : Follows t (K (.ok collected)) s := by
    have hk := hk [] s (List.nil_prefix ..) (by simpa using hlimit) hc hs
    rw [List.flatMap_nil, List.append_nil] at hk
    exact hk
  induction statuses generalizing h s collected with
  | nil => exact hnone
  | cons status statuses ih =>
    unfold collectCases
    rw [run_ite_bind]
    split_ifs with hfull
    · -- The limit is reached.
      exact hnone
    rw [run_bind_bind]
    refine follows_select hs (fun _ _ => rfl) fun ids s hs => ?_
    -- A select takes no more rows than are still wanted.
    have hrows : (Query.eval s.db ids (.casesByStatus status (limit - collected.length))).length ≤
        limit - collected.length := List.length_take_le ..
    generalize Query.eval s.db ids (.casesByStatus status (limit - collected.length)) = rows at *
    let read : StatusRead := ⟨status, limit - collected.length, rows⟩
    have hlength : (collected ++ read.ids).length ≤ limit := by
      rw [List.length_append, StatusRead.ids, List.length_map]
      change collected.length + rows.length ≤ limit
      omega
    -- The read of this status, then those of the later ones.
    have hnext : ∀ (reads : List StatusRead) s', reads.map StatusRead.status <+: statuses →
        ((collected ++ read.ids) ++ reads.flatMap StatusRead.ids).length ≤ limit →
        Cycling budget correlationId remaining
          ((reads.map StatusRead.event).reverse ++ read.event :: h) →
        Here t [] ((reads.map StatusRead.event).reverse ++ read.event :: h) F s' →
        Follows t (K (.ok ((collected ++ read.ids) ++ reads.flatMap StatusRead.ids))) s' := by
      intro reads s' hprefix hle hc hs
      have hk := hk (read :: reads) s'
      rw [List.map_cons, List.map_cons, List.reverse_cons, List.flatMap_cons, ← List.append_assoc,
        List.append_assoc _ [_]] at hk
      exact hk ((List.cons_prefix_cons).mpr ⟨rfl, hprefix⟩) hle hc hs
    have hc := hc.selected (.casesByStatus status (limit - collected.length)) rows rfl
    refine ih hc hs hlength hnext ?_
    have hnext := hnext [] s (List.nil_prefix ..) (by simpa using hlength) hc hs
    rw [List.flatMap_nil, List.append_nil] at hnext
    exact hnext

/-- Step 3 of a cycle. -/
theorem follows_drainApproved {processed : List CycleCaseOutcome}
    {K : Except Raised (List CycleCaseOutcome) → Prog sig Outcome}
    (hc : Cycling budget correlationId remaining h) (hs : Here t [] h F s)
    (hremaining : budget.autoExecute = true → remaining = budget.remaining processed)
    (hk : ∀ (read : Option StatusRead) drained segments remaining' h' s',
      h' = segments.reverse.flatten ++ ((read.map StatusRead.event).toList ++ h) →
      List.Forall₂ (Handles budget.autoExecute) drained segments →
      Drains budget processed read drained → Cycling budget correlationId remaining' h' →
      Here t [] h' F s' → Follows t (K (.ok drained)) s')
    (hf : OnFatal t budget correlationId F fun e => K (.error e)) :
    Follows t ((drainApproved correlationId budget.autoExecute remaining processed).run >>= K) s := by
  unfold drainApproved
  rw [run_ite_bind]
  split_ifs with hgo
  · obtain ⟨hauto, hleft⟩ := hgo
    rw [run_bind_bind, approvedBacklog, run_bind_bind]
    refine follows_select hs (fun _ _ => rfl) fun ids s hs => ?_
    -- As many rows as there are executions left, and those that are excluded.
    let limit := remaining + (processed.map CycleCaseOutcome.recoveryCaseId).eraseDups.length
    generalize Query.eval s.db ids (.casesByStatus .approved limit) = rows at *
    refine follows_pure ?_
    let read : StatusRead := ⟨.approved, limit, rows⟩
    refine follows_drainBacklog (hc.selected _ _ rfl) hauto (List.length_take_le ..) hs
      (fun drained segments remaining' s hall hids hnone hc hs => ?_) hf
    refine hk (some read) drained segments remaining' _ s rfl hall
      (.drained read drained hauto rfl ?_ ?_ hnone) hc hs
    · rw [← hremaining hauto]
    · rw [hids, ← hremaining hauto]
      simp [StatusRead.ids, read]
  · -- The cycle does not execute, or has nothing left to spend.
    refine hk none [] [] remaining h s rfl .nil (.skipped fun hno => hgo ?_) hc hs
    rw [hremaining hno.1]
    exact hno

end Loops

/-! ### A whole cycle -/

/-- **A recovery cycle keeps the protocol.** -/
theorem follows_runRecoveryCycle {budget : CycleBudget}
    {K : Except Raised RecoveryCycleReport → Prog sig Outcome}
    (hs : Here t [] [.started (.cycle budget correlationId)] F s)
    (hk : ∀ report h' s', Resumes [.started (.cycle budget correlationId)] h' →
      Nonempty (CycleRun budget report h') → Here t [] h' F s' → Follows t (K (.ok report)) s')
    (hf : OnFatal t budget correlationId F fun e => K (.error e)) :
    Follows t ((runRecoveryCycle budget correlationId).run >>= K) s := by
  have hbetween : Between [.started (.cycle budget correlationId)] :=
    { not_started := fun event correlationId hst => by simp at hst
      closed := rfl }
  unfold runRecoveryCycle
  rw [run_bind_bind]
  refine follows_uuid4 hs fun cycleId s hs => ?_
  simp only []
  rw [run_bind_bind]
  refine follows_now hs fun startedAt s hs => ?_
  have hr : Proceeds none [.started (.cycle budget correlationId)] _ := .refl rfl
  have hr := hr.clock startedAt
  simp only []
  rw [run_bind_bind]
  have := hr.toResumes.between
  refine follows_discoverFailedPayments hr.idle hs
    (fun discovery h₀ G s (hr' : Proceeds none _ _) hlimit _ hs => ?_) fun h' s hr' _ hs => ?_
  -- A case that is refused in the sweep ends the cycle.
  case refine_2 =>
    exact hf _ [] h' s (hr.toGrows.trans hr'.toGrows) (by rw [hr'.idle]; trivial) hs
  have hs : Here t [] h₀ F s := hs.forget fun f hf => List.mem_append_right G hf
  have hr := hr.trans hr'
  -- The sweep of the cycle is calm: it touches no case that is there.
  have hcalm : ∀ e ∈ h₀, e.Calm none := by
    obtain ⟨added, rfl, hadded⟩ := hr.adds
    intro e he
    rcases List.mem_append.mp he with he | he
    · exact hadded e he
    · rw [List.mem_singleton.mp he]
      exact Event.calm_of_quiet rfl rfl rfl rfl rfl
  -- Nothing is spent so far.
  have hc : Cycling budget correlationId (if budget.autoExecute then budget.maxExecute else 0) h₀ := by
    refine ⟨hr.toResumes, fun hauto => ?_⟩
    rw [hr.adds.linksOf_eq, if_pos hauto]
    exact Nat.zero_add _
  simp only []
  rw [run_bind_bind, casesReadyForDiagnosis, run_bind_bind]
  refine follows_collectCases hc hs (Nat.zero_le _) fun reads s hprefix hlength hc hs => ?_
  rw [List.nil_append] at hlength ⊢
  refine follows_pure ?_
  simp only []
  rw [List.take_of_length_le hlength, run_bind_bind]
  refine follows_processCases hc hs
    (fun processed processing remaining s hprocessed hids hcount hc hs => ?_) hf
  simp only []
  rw [run_bind_bind]
  refine follows_drainApproved hc hs (fun hauto => ?_)
    (fun backlogRead drained draining remaining' h₁ s hrec hdrained hdrains hc hs => ?_) hf
  · -- What step 2 has left is the budget less the cases it has executed.
    rw [if_pos hauto] at hcount
    rw [CycleBudget.remaining]
    omega
  simp only []
  rw [run_bind_bind]
  refine follows_now hs fun finishedAt s hs => ?_
  have hend : Proceeds none h₁ h₁ := .refl hc.idle
  have hend := hend.clock finishedAt
  simp only []
  rw [run_bind_bind]
  refine follows_recordEvent hs fun now s hs => ?_
  have hend := hend.clock now
  simp only []
  rw [run_bind_bind]
  have hc' := hc.toResumes.trans hend.toResumes
  refine follows_commit hs (fun db _ _ => ?_) fun db s _ _ _ hs => ?_
  · -- The report is a transaction of its own.
    exact .cycled cycleId _ correlationId now hc'.between hc'.idle ⟨_, _, _, _, _, _, _, _, rfl⟩
  · obtain ⟨closing, hclosing, hquiet⟩ := (hend.audited ..).adds
    refine hk _ _ s (hc.toResumes.trans (hend.audited ..).toResumes) ⟨?_⟩ hs
    exact
      { discovery := h₀
        closing := closing
        reads := reads
        processed := processed
        drained := drained
        processing := processing
        draining := draining
        backlogRead := backlogRead
        record := by rw [hclosing, hrec]
        around := fun e he => (List.mem_append.mp he).elim (hcalm e) (hquiet e)
        statuses := hprefix
        candidates := hids
        processes := hprocessed
        drains := hdrained
        backlog := hdrains
        outcomes_eq := rfl
        diagnosedLe := by
          rw [← List.length_map CycleCaseOutcome.recoveryCaseId, hids]
          exact hlength
        executedLe := by omega
        discoveredLe := hlimit
        reported := ⟨cycleId, startedAt, finishedAt, rfl⟩ }

end RecoverAI
