import RecoverAI.Runs.Alone
import RecoverAI.Runs.Executions
import RecoverAI.Runs.Intake

/-!
# Diagnoses, whole or not at all

A diagnosis flushes many times and commits once. What it leaves is therefore the whole
transaction of the diagnosis or nothing (`diagnosis_all_or_nothing`), whoever goes on to
use its session, unless a cycle catches what the AI raises and goes on with half a diagnosis
in its session (`spilled_not_whole`); and a diagnosis that runs alone fails only for what it
has read and been answered (`Alone.diagnoses`).

What the AI recommends decides about the status of the case and the columns of the
recommendation, and about nothing else (`diagnosis_noninterfering`). Not even that it
recommends a person is always followed (`escalated_iff`).
-/

namespace RecoverAI

open Interleave

variable {H H' : History} {t : Tid} {es : List Event} {caseId : Uuid} {correlationId : String}
  {r : Outcome}

/-! ### The reads of a diagnosis -/

/-- Reading commits nothing. -/
theorem Diagnosis.commits_reads (d : Diagnosis) (settings : Settings) (now : Time) :
    commits (d.reads settings now) = [] := by
  unfold reads admissionReads
  split <;> rfl

/-- The first read of a diagnosis is the case. -/
theorem Diagnosis.exists_reads_eq (d : Diagnosis) (settings : Settings) (now : Time) :
    ∃ newer, d.reads settings now = newer ++ [.selected (.caseForDiagnosis d.before.id)
      (some ⟨d.before, d.payment, d.customer, d.attempts⟩)] := by
  unfold reads admissionReads requestReads
  -- A discovered case has one clock reading more, at the door.
  split
  · exact ⟨[_, _, _, _, _, _, _, _, _, _, _, _, _], rfl⟩
  · exact ⟨[_, _, _, _, _, _, _, _, _, _, _, _], rfl⟩

/-- What a diagnosis has read of the database. -/
structure Diagnosis.ReadFrom (d : Diagnosis) (db : Db) (caseId : Uuid) : Prop where
  id : d.before.id = caseId
  row : db.recoveryCases.get? caseId = some d.before
  payment : db.payments.get? d.before.paymentId = some d.payment

/-- What a select has answered is in the database. -/
theorem Diagnosis.ReadFrom.of_eval {d : Diagnosis} {db : Db} {ranking : List Uuid}
    (h : some ⟨d.before, d.payment, d.customer, d.attempts⟩ =
      Query.eval db ranking (.caseForDiagnosis d.before.id)) : d.ReadFrom db d.before.id where
  id := rfl
  row := (Db.caseForDiagnosis_eq_some h.symm).1
  payment := (Db.caseForDiagnosis_eq_some h.symm).2

/-! ### A diagnosis that runs alone -/

/-- What a diagnosis needs to find of a case. -/
def Db.HasCase (db : Db) (caseId : Uuid) : Prop :=
  ∃ c p, db.recoveryCases.get? caseId = some c ∧ db.payments.get? c.paymentId = some p ∧
    db.CustomerExists p.customerId

/-- Such a case is found, in any order of ties. -/
theorem Db.HasCase.caseForDiagnosis_ne_none {db : Db} (h : db.HasCase caseId)
    (ranking : List Uuid) : db.caseForDiagnosis ranking caseId ≠ none := by
  obtain ⟨c, p, hc, hp, hu⟩ := h
  obtain ⟨u, hu⟩ := Option.isSome_iff_exists.mp hu
  simp [caseForDiagnosis, hc, hp, hu]

/-- Why a diagnosis that runs alone fails. -/
inductive Hindered (db : Db) (caseId : Uuid) (es : List Event) : Prop where
  | missing (missing : ¬ db.HasCase caseId)
  | undiagnosable (c : RecoveryCase) (row : db.recoveryCases.get? caseId = some c)
      (status : c.status ∉ diagnosableStatuses)
  | unanswered (context : PaymentRecoveryContext) (error : Raised)
      (answer : .recommended context (.error error) ∈ es)

/-- **What a diagnosis that runs alone does** to the database `db`: nothing, or its one
transaction. Its events are `es`. -/
inductive Diagnoses (db : Db) (caseId : Uuid) (es : List Event) : Outcome → Db → Prop where
  | failed (e : Raised) (why : Hindered db caseId es) : Diagnoses db caseId es (.error e) db
  | turnedAway (d : Diagnosis) (response : DiagnosisResponse) (read : d.ReadFrom db caseId)
      (status : d.before.status = .discovered) (ineligible : d.eligible = false)
      (events : es = .committed d.turnAwayStmts :: .clock d.t₁ :: d.requestReads)
      (caseStatus : response.caseStatus = .ineligible) :
      Diagnoses db caseId es (.ok (.diagnosed response)) (Store.applyAll d.turnAwayStmts db)
  | diagnosed (d : Diagnosis) (response : DiagnosisResponse) (settings : Settings) (now : Time)
      (read : d.ReadFrom db caseId) (status : d.before.status ∈ diagnosableStatuses)
      (admitted : d.before.status = .discovered → d.eligible = true)
      (config : d.config = getPolicyConfig settings)
      (events : es = .committed d.stmts :: d.reads settings now)
      (caseStatus : response.caseStatus = d.next.1) :
      Diagnoses db caseId es (.ok (.diagnosed response)) (Store.applyAll d.stmts db)

section Alone

variable (ha : Alone H t (.diagnose caseId correlationId) r es H')
include ha

/-- Nothing moves the case of a diagnosis that runs alone. -/
theorem Alone.hindered (hcommits : commits es = [])
    (hwhy : Undiagnosed (es ++ [.started (.diagnose caseId correlationId)]) (H.replay.after es)
      caseId) : Hindered H.replay caseId es := by
  have hdb : H.replay.after es = H.replay := Db.after_of_commits _ hcommits
  -- what was selected was selected from the database as it was
  have hread : ∀ loaded, .selected (.caseForDiagnosis caseId) loaded ∈
      es ++ [.started (.diagnose caseId correlationId)] →
      ∃ ranking, loaded = Query.eval H.replay ranking (.caseForDiagnosis caseId) := by
    intro loaded hmem
    have hmem : .selected (.caseForDiagnosis caseId) loaded ∈ es := by
      rcases List.mem_append.mp hmem with hmem | hmem
      · exact hmem
      · cases List.mem_singleton.mp hmem
    obtain ⟨newer, older, rfl⟩ := List.append_of_mem hmem
    rw [commits_append, List.append_eq_nil_iff] at hcommits
    exact ha.eval_of_selected rfl hcommits.2
  cases hwhy with
  -- No case was found, so there is none.
  | missing hmem =>
    obtain ⟨ranking, he⟩ := hread none hmem
    exact .missing fun hhas => hhas.caseForDiagnosis_ne_none ranking he.symm
  | undiagnosable loaded hmem hstatus =>
    obtain ⟨ranking, he⟩ := hread _ hmem
    exact .undiagnosable _ (Db.caseForDiagnosis_eq_some he.symm).1 hstatus
  | unanswered context error hmem =>
    rcases List.mem_append.mp hmem with hmem | hmem
    · exact .unanswered context error hmem
    · cases List.mem_singleton.mp hmem
  -- The row that was read is the row that is there: nobody has moved it.
  | moved loaded hmem hout =>
    obtain ⟨ranking, he⟩ := hread _ hmem
    have hrow := (Db.caseForDiagnosis_eq_some he.symm).1
    have hid : loaded.recoveryCase.id = caseId := Table.key_of_get? hrow
    obtain ⟨c, hc, hlt⟩ := hout
    rw [hdb, hid, hrow] at hc
    obtain rfl := Option.some.inj hc
    exact absurd hlt (lt_irrefl _)

/-- **A diagnosis that runs alone.** -/
theorem Alone.diagnoses : Diagnoses H.replay caseId es r H'.replay := by
  have hended := ha.ended.diagnosed caseId correlationId (by simp)
  rw [ha.replay_eq]
  cases r with
  | error e =>
    -- It has committed nothing, so the database is as it was.
    obtain ⟨hcommits, hwhy⟩ := hended
    rw [commits_append, List.append_eq_nil_iff] at hcommits
    rw [Db.after_of_commits _ hcommits.1]
    exact .failed e (ha.hindered hcommits.1 hwhy)
  | ok response =>
    cases response with
    | diagnosed response =>
      change WholeDiagnosis _ caseId response.caseStatus _ at hended
      generalize hh : es ++ [.started (.diagnose caseId correlationId)] = h at hended
      generalize hstatus : response.caseStatus = caseStatus at hended
      cases hended with
      | turnedAway d status ineligible =>
        have hes : es = .committed d.turnAwayStmts :: .clock d.t₁ :: d.requestReads :=
          List.append_cancel_right hh
        -- The select of the case is the first event of the operation.
        have hread : es = [.committed d.turnAwayStmts, .clock d.t₁, .clock d.t₀] ++
            .selected (.caseForDiagnosis d.before.id)
              (some ⟨d.before, d.payment, d.customer, d.attempts⟩) :: [] := hes
        obtain ⟨ranking, he⟩ := ha.eval_of_selected hread rfl
        have hafter : H.replay.after es = Store.applyAll d.turnAwayStmts H.replay := by
          rw [hes, Db.after_cons, Db.after_of_commits _ rfl, Event.applyTo_committed]
        rw [hafter]
        exact .turnedAway d response (.of_eval he) status ineligible hes hstatus
      | diagnosed d settings now status admitted config =>
        have hes : es = .committed d.stmts :: d.reads settings now := List.append_cancel_right hh
        obtain ⟨newer, hreads⟩ := d.exists_reads_eq settings now
        have hread : es = (.committed d.stmts :: newer) ++ .selected (.caseForDiagnosis d.before.id)
            (some ⟨d.before, d.payment, d.customer, d.attempts⟩) :: [] := by rw [hes, hreads]; rfl
        obtain ⟨ranking, he⟩ := ha.eval_of_selected hread rfl
        have hafter : H.replay.after es = Store.applyAll d.stmts H.replay := by
          rw [hes, Db.after_cons, Db.after_of_commits _ (d.commits_reads settings now),
            Event.applyTo_committed]
        rw [hafter]
        exact .diagnosed d response settings now (.of_eval he) status admitted config hes hstatus
    -- A diagnosis answers with the response of a diagnosis.
    | _ => exact hended.elim

end Alone

/-! ### Whole or not at all -/

/-- The audit events of a diagnosis. Where another operation changes a case, the case was
approved or executing. -/
def AuditBody.diagnostic : AuditBody → Bool
  | .diagnosisRequested _ => true
  | .aiDiagnosisCreated .. => true
  | .recoveryRecommendationCreated .. => true
  | .policyEvaluated .. => true
  -- A diagnosis starts from another status, and its own changes stay in between.
  | .recoveryCaseStatusChanged source _ _ => source ≠ .approved ∧ source ≠ .executing
  | _ => false

/-- What a diagnosis writes. -/
def Stmt.diagnostic : Stmt → Bool
  | .updateCase before _ => before.status ≠ .approved ∧ before.status ≠ .executing
  | .insertAuditEvent row => row.body.diagnostic
  | _ => false

/-- Nothing a diagnosis writes is among the statements. -/
def Undiagnostic (sts : List Stmt) : Prop := ∀ st ∈ sts, st.diagnostic = false

namespace Undiagnostic

variable {sts sts' : List Stmt} {st : Stmt}

/-- No statement. -/
theorem nil : Undiagnostic [] := fun _ hst => absurd hst List.not_mem_nil

/-- One statement more. -/
theorem cons (hst : st.diagnostic = false) (h : Undiagnostic sts) : Undiagnostic (st :: sts) :=
  List.forall_mem_cons.mpr ⟨hst, h⟩

/-- Two parts. -/
theorem append (h : Undiagnostic sts) (h' : Undiagnostic sts') : Undiagnostic (sts ++ sts') := by
  intro st hst
  exact (List.mem_append.mp hst).elim (h st) (h' st)

/-- Other tables. -/
theorem of_table (h : ∀ st ∈ sts, st.table ≠ .recoveryCases ∧ st.table ≠ .auditEvents) :
    Undiagnostic sts := by
  intro st hst
  cases st with
  | updateCase before after => exact absurd rfl (h _ hst).1
  | insertAuditEvent row => exact absurd rfl (h _ hst).2
  | _ => rfl

/-- The update of an attempt. -/
theorem attemptUpdate (before after : RecoveryAttempt) : Undiagnostic (before.pendingUpdate after) :=
  of_table fun st hst => by rw [RecoveryAttempt.table_of_mem_pendingUpdate hst]; simp

/-- The update of a link. -/
theorem linkUpdate (before after : RecoveryPaymentRequest) :
    Undiagnostic (before.pendingUpdate after) :=
  of_table fun st hst => by rw [RecoveryPaymentRequest.table_of_mem_pendingUpdate hst]; simp

/-- A transition of an approved or an executing case. -/
theorem transition {before after : RecoveryCase} {target : RecoveryCaseStatus}
    {correlationId : String} {reason : Option String} {dirty : List Stmt} {now : Time}
    (hstatus : before.status = .approved ∨ before.status = .executing)
    (hsame : after.status = before.status) (hdirty : Undiagnostic dirty) :
    Undiagnostic (transitionStmts before after target correlationId reason dirty now) := by
  have hupdate : (Stmt.updateCase before { after with status := target }).diagnostic = false := by
    -- The row was approved or executing before.
    rcases hstatus with h | h <;> simp [Stmt.diagnostic, h]
  have haudit : (auditStmt (.recoveryCase after.id)
      (.recoveryCaseStatusChanged after.status target reason) .system correlationId now).diagnostic =
        false := by
    rcases hstatus with h | h <;> simp [Stmt.diagnostic, auditStmt, AuditBody.diagnostic, hsame, h]
  exact (cons hupdate hdirty).append (cons haudit nil)

/-- An ingestion. -/
theorem payment (newCustomer : Bool) (customer : Customer) (payment : Payment)
    (correlationId : String) (now : Time) :
    Undiagnostic (paymentStmts newCustomer customer payment correlationId now) := by
  have hcustomer : Undiagnostic (if newCustomer then [.insertCustomer customer] else []) := by
    split
    · exact cons rfl nil
    · exact nil
  exact hcustomer.append (cons rfl (cons rfl (cons rfl nil)))

/-- A sweep. -/
theorem openings (openings : List Opening) (correlationId : String) :
    Undiagnostic (openings.map fun o => Opening.stmts o correlationId).flatten :=
  forall_mem_openings (fun _ => rfl) (fun _ _ _ _ => rfl) openings

/-- The claim of an approved case. -/
theorem claim (x : Execution) (h : x.recoveryCase.status = .approved) : Undiagnostic x.claimStmts :=
  (cons rfl (cons rfl nil)).append (transition (.inl h) rfl nil)

/-- What a delivery says of its link. -/
theorem observe (d : Delivery) (now : Time) : Undiagnostic (d.observeStmts now) := by
  -- What is said of a payment is no event of a diagnosis.
  have haudit : (auditStmt (.recoveryCase d.loaded.recoveryCase.id)
      (paymentEventBody d.observed d.event.paymentId) .system d.correlationId now).diagnostic =
        false := by
    unfold paymentEventBody
    split <;> rfl
  exact cons rfl ((linkUpdate _ _).append (cons haudit nil))

end Undiagnostic

/-- The transactions of a diagnosis, with what it knows and all that it has read. -/
inductive DiagnosisTxn (h : List Event) (db : Db) : List Stmt → Prop where
  | turnedAway (d : Diagnosis) (known : d.Known db) (status : d.before.status = .discovered)
      (ineligible : d.eligible = false) (reads : .clock d.t₁ :: d.requestReads <+: h) :
      DiagnosisTxn h db d.turnAwayStmts
  | diagnosed (d : Diagnosis) (known : d.Known db) (status : d.before.status ∈ diagnosableStatuses)
      (admitted : d.before.status = .discovered → d.eligible = true)
      (settings : Settings) (now : Time) (config : d.config = getPolicyConfig settings)
      (reads : d.reads settings now <+: h) :
      DiagnosisTxn h db d.stmts

/-- **What an operation commits** is the transaction of a diagnosis or nothing of one. -/
theorem Txn.diagnosis_or_undiagnostic {h : List Event} {db : Db} {sts : List Stmt}
    (htxn : Txn h db sts) : DiagnosisTxn h db sts ∨ Undiagnostic sts := by
  cases htxn with
  | ingested i => exact .inr (.payment _ _ _ _ _)
  | ingestedWithCase i id createdAt t' =>
    exact .inr ((Undiagnostic.payment _ _ _ _ _).append (.cons rfl (.cons rfl .nil)))
  | deduplicated => exact .inr (.cons rfl .nil)
  | opened openings correlationId => exact .inr (.openings openings correlationId)
  | turnedAway d op idle known status ineligible reads =>
    exact .inl (.turnedAway d known status ineligible reads)
  | diagnosed d op idle known status admitted reads =>
    obtain ⟨settings, now, config, reads⟩ := reads
    exact .inl (.diagnosed d known status admitted settings now config reads)
  | claimed x op idle known => exact .inr (.claim x known.approved)
  | withheld x reason t op idle known =>
    exact .inr ((Undiagnostic.claim x known.approved).append (.transition (.inr rfl) rfl .nil))
  | attempted => exact .inr (.cons rfl (.cons rfl .nil))
  | recorded c attempt made link id completedAt correlationId t op inHand =>
    -- The case in hand is executing.
    have hupdate : (Stmt.updateCase c c.counted).diagnostic = false := by
      simp [Stmt.diagnostic, executing_of_phase (CaseStep.case?_of_inHand inHand)]
    have hflush : Undiagnostic (recordFlush c attempt link id completedAt) :=
      (Undiagnostic.cons hupdate (.attemptUpdate _ _)).append (.cons rfl .nil)
    exact .inr (hflush.append (.cons rfl .nil))
  | reconciled => exact .inr (.cons rfl (.cons rfl .nil))
  | gaveUp c attempt made category message reason correlationId completedAt t op inHand =>
    have hexecuting := executing_of_phase (CaseStep.case?_of_gaveUp inHand)
    exact .inr ((Undiagnostic.attemptUpdate _ _).append (.transition (.inr hexecuting) rfl .nil))
  | ignored => exact .inr (.cons rfl .nil)
  | unmatched => exact .inr (.cons rfl (.cons rfl .nil))
  | detached => exact .inr (.cons rfl .nil)
  | observed d => exact .inr (.observe d _)
  | recovered d t t' idle known executing =>
    exact .inr ((Undiagnostic.observe d _).append (.transition (.inr executing) rfl .nil))
  | failed d attempt t t' idle known executing =>
    have hattempt : Undiagnostic (d.failureStmts attempt) :=
      .of_table fun st hst => by rw [d.table_failureStmts hst]; simp
    exact .inr ((Undiagnostic.observe d _).append (.transition (.inr executing) rfl hattempt))
  | cycled cycleId body correlationId t op idle report =>
    obtain ⟨b, n₁, n₂, n₃, n₄, n₅, n₆, n₇, rfl⟩ := report
    exact .inr (.cons rfl .nil)

/-- A diagnosis that commits is whole, and just done. -/
theorem Txn.whole_or_undiagnostic {h : List Event} {db : Db} {sts : List Stmt}
    (htxn : Txn h db sts) :
    (∃ older caseId status, WholeDiagnosis older caseId status (.committed sts :: h)) ∨
      Undiagnostic sts := by
  refine htxn.diagnosis_or_undiagnostic.imp_left fun hd => ?_
  cases hd with
  | turnedAway d known status ineligible reads =>
    -- All that the diagnosis has read stands right before its transaction.
    obtain ⟨older, rfl⟩ := reads
    exact ⟨older, _, _, .turnedAway d status ineligible⟩
  | diagnosed d known status admitted settings now config reads =>
    obtain ⟨older, rfl⟩ := reads
    exact ⟨older, _, _, .diagnosed d settings now status admitted config⟩

/-- **Diagnoses are whole or not at all.** A diagnosis that fails has committed nothing, and
one that succeeds its whole sequence, with all that it has read before it. What any
operation commits, a cycle that goes on after a failed diagnosis among them, is a whole
diagnosis that it has just done, or nothing a diagnosis writes. -/
structure DiagnosedWhole (H : History) : Prop where
  failed : ∀ t caseId correlationId e, (t, .started (.diagnose caseId correlationId)) ∈ H →
    (t, .ended (some (.error e))) ∈ H → commits (H.own t) = []
  succeeded : ∀ t caseId correlationId r, (t, .started (.diagnose caseId correlationId)) ∈ H →
    (t, .ended (some (.ok r))) ∈ H → ∃ response h, r = .diagnosed response ∧
      H.own t = .ended (some (.ok r)) :: h ∧
      WholeDiagnosis [.started (.diagnose caseId correlationId)] caseId response.caseStatus h
  committed : ∀ newer older t sts, H = newer ++ (t, .committed sts) :: older →
    (∃ before caseId status,
      WholeDiagnosis before caseId status (.committed sts :: History.own older t)) ∨
    Undiagnostic sts
  settled : ∀ c ∈ H.replay.recoveryCases,
    c.status ∉ [.eligible, .diagnosing, .recommended, .policyReview]

/-- What has ended was diagnosed whole, or not at all. -/
theorem Reachable.diagnosisEnded {w : World} (hw : Reachable w) {outcome : Outcome}
    (hstarted : (t, .started (.diagnose caseId correlationId)) ∈ w.shared.history)
    (hended : (t, .ended (some outcome)) ∈ w.shared.history) :
    ∃ h db, History.own w.shared.history t = .ended (some outcome) :: h ∧
      DiagnosisEnded h db caseId correlationId outcome := by
  obtain ⟨newer, older, hsplit, hl, hp, hown⟩ := hw.own_of_ended hended
  refine ⟨older.own t, older.replay, hown, hp.diagnosed caseId correlationId ?_⟩
  -- The start is older than the end.
  rw [← History.mem_own, hown] at hstarted
  exact (List.mem_cons.mp hstarted).resolve_left nofun

/-- **A diagnosis is all or nothing**, in every run in which no domain error of a remote party
finds something flushed in a cycle; and one that runs alone leaves the database as it was, or
with its whole transaction. -/
theorem diagnosis_all_or_nothing {w : World}
    (hvia : openMachine.ReachesVia Contained World.empty w) :
    DiagnosedWhole w.shared.history ∧
    ∀ caseId correlationId is r s', openMachine.perform? w.threads.length
        (.diagnose caseId correlationId) is w.shared = some (r, s') →
      ∃ es, Diagnoses w.shared.db caseId es r s'.db := by
  have hw : Reachable w := .of_contained hvia
  refine ⟨⟨fun t caseId correlationId e hstarted hended => ?_,
    fun t caseId correlationId r hstarted hended => ?_, fun newer older t sts hsplit => ?_,
    fun c hc => ?_⟩, fun caseId correlationId is r s' h => ?_⟩
  · -- It has raised.
    obtain ⟨h, db, hown, hd⟩ := hw.diagnosisEnded hstarted hended
    rw [hown]
    exact hd.1
  · -- It has returned.
    obtain ⟨h, db, hown, hd⟩ := hw.diagnosisEnded hstarted hended
    cases r with
    | diagnosed response => exact ⟨response, h, rfl, hown, hd⟩
    | _ => exact hd.elim
  · -- A transaction in the record was permitted where it stands.
    have hl := Reachable.lawful hw
    rw [hsplit] at hl
    exact Txn.whole_or_undiagnostic hl.of_append.cons_inv.2.1
  · -- A committed case is in none of the statuses a diagnosis passes through.
    have hl := Reachable.lawful hw
    exact (hl.caseInv (hl.distinct.caseId.get?_of_mem hc)).settled
  · -- A thread that does not exist yet has nothing in the record, and runs as in the closed
    -- machine.
    have hown : w.shared.own w.threads.length = [] :=
      own_of_fresh hvia.reaches (List.getElem?_eq_none le_rfl)
    rw [perform?_open rfl hown] at h
    obtain ⟨es, ha, hdb⟩ := alone_of_perform? hw h
    rw [hdb, Reachable.db_eq hw]
    exact ⟨es, ha.diagnoses⟩

namespace Sample

/-- A payment of the given amount, opened as case 3. -/
def opened (amount : Int) (hpos : 0 < amount) : World :=
  World.empty.after
    (alone 0 (.ingest { request with amount := amount, amount_pos := hpos } "c") (ingest 1 2 3))

/-- The diagnosis of the case, with the recommendation of the AI. -/
def diagnosis (amount : Int) (hpos : 0 < amount) (action : RecoveryAction) :
    Option (Outcome × State) :=
  machine.perform? (opened amount hpos).threads.length (.diagnose 3 "c") (diagnose true action)
    (opened amount hpos).shared

/-- One payment, opened as case 3. -/
def one : List Action := alone 0 (.ingest request "c") (ingest 1 2 3)

/-- A cycle over the case, whose AI service raises a domain error. -/
def spilled : List Action :=
  one ++ alone 1 (.cycle { cycleBudget with maxDiagnose := 1 } "c")
    (openCycle ++ diagnoseRaising (.recoverAI (.notFound "-")) ++ [.ranking [], .ranking []] ++
      closeCycle)

end Sample

set_option maxRecDepth 10000 in
theorem diagnosis_all_or_nothing_sample :
    DiagnosedWhole (World.empty.afterOpen Sample.one).shared.history ∧ ∃ r s es,
      openMachine.perform? (World.empty.afterOpen Sample.one).threads.length (.diagnose 3 "c")
        (Sample.diagnose true .sendPaymentLink) (World.empty.afterOpen Sample.one).shared =
          some (r, s) ∧
      Diagnoses (World.empty.afterOpen Sample.one).shared.db 3 es r s.db := by
  have hvia : openMachine.ReachesVia Contained World.empty (World.empty.afterOpen Sample.one) :=
    World.reachesVia_afterOpen (by decide +kernel)
  have hsome : (openMachine.perform? (World.empty.afterOpen Sample.one).threads.length
      (.diagnose 3 "c") (Sample.diagnose true .sendPaymentLink)
      (World.empty.afterOpen Sample.one).shared).isSome = true := by
    decide +kernel
  obtain ⟨⟨r, s⟩, h⟩ := Option.isSome_iff_exists.mp hsome
  have hwhole := diagnosis_all_or_nothing hvia
  obtain ⟨es, hes⟩ := hwhole.2 _ _ _ _ _ h
  exact ⟨hwhole.1, r, s, es, h, hes⟩

set_option maxRecDepth 10000 in
/-- The cycle catches the error and commits what the diagnosis has flushed. -/
theorem spilled_not_whole :
    openMachine.Reaches World.empty (World.empty.afterOpen Sample.spilled) ∧
      (World.empty.afterOpen Sample.spilled).shared.db.statusOf 3 = some .diagnosing ∧
      ¬ DiagnosedWhole (World.empty.afterOpen Sample.spilled).shared.history := by
  refine ⟨World.reaches_afterOpen _ _, by decide +kernel, fun h => ?_⟩
  have hunsettled : (History.replay (World.empty.afterOpen
      Sample.spilled).shared.history).recoveryCases.any (fun c => c.status = .diagnosing) = true := by
    decide +kernel
  obtain ⟨c, hc, hstatus⟩ := List.any_eq_true.mp hunsettled
  have hsettled := h.settled c hc
  rw [of_decide_eq_true hstatus] at hsettled
  exact hsettled (by decide)

/-! ### What the AI does not reach -/

/-- The columns of a case about its payment and its recovery so far. -/
structure RecoveryCase.SameLedger (c c' : RecoveryCase) : Prop where
  paymentId : c.paymentId = c'.paymentId
  revenueAtRisk : c.revenueAtRisk = c'.revenueAtRisk
  recoveredAmount : c.recoveredAmount = c'.recoveredAmount
  currentAttemptNumber : c.currentAttemptNumber = c'.currentAttemptNumber
  customerContactCount : c.customerContactCount = c'.customerContactCount

/-- A case has the ledger of itself. -/
theorem RecoveryCase.SameLedger.refl (c : RecoveryCase) : c.SameLedger c := ⟨rfl, rfl, rfl, rfl, rfl⟩

/-- Two databases with the same payments, customers, attempts, links and deliveries, and the
same cases up to the columns of their diagnoses. -/
structure Db.SameLedger (db db' : Db) : Prop where
  customers : db.customers = db'.customers
  payments : db.payments = db'.payments
  recoveryAttempts : db.recoveryAttempts = db'.recoveryAttempts
  recoveryPaymentRequests : db.recoveryPaymentRequests = db'.recoveryPaymentRequests
  processedWebhookEvents : db.processedWebhookEvents = db'.processedWebhookEvents
  recoveryCases : ∀ id, Option.Rel RecoveryCase.SameLedger (db.recoveryCases.get? id)
    (db'.recoveryCases.get? id)

namespace Db.SameLedger

variable {db db' db'' : Db}

/-- So has a database. -/
theorem refl (db : Db) : db.SameLedger db where
  customers := rfl
  payments := rfl
  recoveryAttempts := rfl
  recoveryPaymentRequests := rfl
  processedWebhookEvents := rfl
  recoveryCases := by
    intro id
    cases db.recoveryCases.get? id with
    | none => exact .none
    | some c => exact .some (.refl c)

/-- Two databases that have the ledger of a third. -/
theorem trans' (h : db.SameLedger db') (h' : db.SameLedger db'') : db'.SameLedger db'' where
  customers := h.customers.symm.trans h'.customers
  payments := h.payments.symm.trans h'.payments
  recoveryAttempts := h.recoveryAttempts.symm.trans h'.recoveryAttempts
  recoveryPaymentRequests := h.recoveryPaymentRequests.symm.trans h'.recoveryPaymentRequests
  processedWebhookEvents := h.processedWebhookEvents.symm.trans h'.processedWebhookEvents
  recoveryCases := by
    intro id
    have hr := h.recoveryCases id
    have hr' := h'.recoveryCases id
    generalize db.recoveryCases.get? id = a at hr hr'
    generalize db'.recoveryCases.get? id = b at hr ⊢
    generalize db''.recoveryCases.get? id = b' at hr' ⊢
    -- The case is in neither database, or in both.
    cases hr with
    | none =>
      cases hr' with
      | none => exact .none
    | some hc =>
      cases hr' with
      | some hc' =>
        exact .some
          { paymentId := hc.paymentId.symm.trans hc'.paymentId
            revenueAtRisk := hc.revenueAtRisk.symm.trans hc'.revenueAtRisk
            recoveredAmount := hc.recoveredAmount.symm.trans hc'.recoveredAmount
            currentAttemptNumber := hc.currentAttemptNumber.symm.trans hc'.currentAttemptNumber
            customerContactCount := hc.customerContactCount.symm.trans hc'.customerContactCount }

/-- Statements that turn one case into another with the same ledger. -/
theorem of_turns {sts : List Stmt} {c c' : RecoveryCase} (hsts : OnCases sts)
    (ht : Turns sts c c') (hc : db.recoveryCases.get? c.id = some c) (hs : c.SameLedger c') :
    db.SameLedger (Store.applyAll sts db) where
  customers := (Stmt.frame_customers (hsts.table_ne (by simp) (by simp))).symm
  payments := (Stmt.frame_payments (hsts.table_ne (by simp) (by simp))).symm
  recoveryAttempts := (Stmt.frame_recoveryAttempts (hsts.table_ne (by simp) (by simp))).symm
  recoveryPaymentRequests :=
    (Stmt.frame_recoveryPaymentRequests (hsts.table_ne (by simp) (by simp))).symm
  processedWebhookEvents :=
    (Stmt.frame_processedWebhookEvents (hsts.table_ne (by simp) (by simp))).symm
  recoveryCases := by
    intro id
    rw [ht db hc]
    split
    · -- The case itself is turned; any other row is the same.
      next hid =>
      rw [← hid, hc]
      exact .some hs
    · exact (refl db).recoveryCases id

end Db.SameLedger

/-- A diagnosis leaves the ledger of its case. -/
theorem Diagnosis.sameLedger (d : Diagnosis) : d.before.SameLedger d.after where
  paymentId := d.after_paymentId.symm
  revenueAtRisk := d.after_revenueAtRisk.symm
  recoveredAmount := d.after_recoveredAmount.symm
  currentAttemptNumber := d.after_currentAttemptNumber.symm
  customerContactCount := d.after_customerContactCount.symm

/-- A diagnosis that runs alone leaves the ledger as it was. -/
theorem Diagnoses.sameLedger {db db' : Db} (h : Diagnoses db caseId es r db') :
    db.SameLedger db' := by
  cases h with
  | failed e why => exact .refl db
  | turnedAway d response read =>
    obtain rfl := read.id
    exact .of_turns d.onCases_turnAwayStmts d.turns_turnAwayStmts read.row ⟨rfl, rfl, rfl, rfl, rfl⟩
  | diagnosed d response settings now read =>
    obtain rfl := read.id
    exact .of_turns d.onCases_stmts d.turns_stmts read.row d.sameLedger

/-- Whether a diagnosis finds the case eligible: at the door, or when it passed there. -/
def Db.admits (db : Db) (c : RecoveryCase) : Bool :=
  if c.status = .discovered then
    (db.payments.get? c.paymentId).any fun p => p.status = .failed ∧ p.amount > 0
  else c.eligible

/-- At the door the payment decides; behind it the case was admitted. -/
theorem Diagnosis.admits_eq {d : Diagnosis} {db : Db} (h : d.ReadFrom db caseId) :
    db.admits d.before = if d.before.status = .discovered then d.eligible else d.before.eligible := by
  rw [Db.admits, h.payment, Option.any_some]
  rfl

/-- With a recommendation, the eligibility of the case depends on what was read only. -/
theorem Diagnoses.eligible {db db' : Db} (h : Diagnoses db caseId es r db')
    (hcase : db.HasCase caseId)
    (hanswered : ∀ context error, .recommended context (.error error) ∉ es) :
    (db'.recoveryCases.get? caseId).map RecoveryCase.eligible =
      (db.recoveryCases.get? caseId).map db.admits := by
  cases h with
  | failed e why =>
    cases why with
    -- There is a case.
    | missing hmissing => exact absurd hcase hmissing
    -- The case was not discovered, and is as it was.
    | undiagnosable c hc hnot =>
      have hne : c.status ≠ .discovered := fun he => hnot (by rw [he]; decide)
      rw [hc, Option.map_some, Option.map_some, Db.admits, if_neg hne]
    -- The AI has answered.
    | unanswered context error hmem => exact absurd hmem (hanswered context error)
  | turnedAway d response read status ineligible =>
    rw [read.row, Option.map_some, Diagnosis.admits_eq read, if_pos status, ineligible]
    obtain rfl := read.id
    rw [d.turns_turnAwayStmts _ read.row, if_pos rfl]
    rfl
  | diagnosed d response settings now read status admitted =>
    rw [read.row, Option.map_some, Diagnosis.admits_eq read]
    obtain rfl := read.id
    rw [d.turns_stmts _ read.row, if_pos rfl, Option.map_some, d.after_eligible, Diagnosis.admitted]
    split
    · -- It was eligible at the door.
      next hdisc => rw [admitted hdisc]; rfl
    · rfl

/-- The request of a call is for the payment of the case. -/
theorem Reachable.request_of_created {w v : World} (hw : Reachable w)
    (hv : machine.Reaches w v) {c : RecoveryCase} {p : Payment}
    (hc : w.shared.db.recoveryCases.get? caseId = some c)
    (hp : w.shared.db.payments.get? c.paymentId = some p) {request : CreatePaymentLinkRequest}
    {made : Option PaymentLinkSnapshot} {answer : Except ProviderException PaymentLinkSnapshot}
    (hcall : (t, .created caseId request made answer) ∈ v.shared.history) :
    request.amount = p.amount ∧ request.currency = p.currency := by
  have hv' : Reachable v := hw.trans hv
  have hl := Reachable.lawful hv'
  -- The database has evolved from `w` to `v`.
  have hev := (extends_of_reaches hw hv).evolves
  rw [← Reachable.db_eq hw, ← Reachable.db_eq hv'] at hev
  obtain ⟨newer, older, hsplit⟩ := List.append_of_mem hcall
  obtain ⟨x, hx, -⟩ := authorized_of_created hv' hsplit
  -- the case that was read is the case of `w`, later
  have hread : (t, .selected (.caseForExecution caseId)
      (some ⟨x.recoveryCase, x.payment, x.attempts⟩)) ∈ v.shared.history := by
    rw [hsplit]
    exact List.mem_append_right _ (List.mem_cons_of_mem _ hx.read)
  obtain ⟨⟨row, hrow, hbecomes⟩, hid⟩ := hl.caseSeen_of_read hread
  rw [← Reachable.db_eq hv', hid] at hrow
  obtain ⟨row', hrow', hbecomes'⟩ := hev.recoveryCase _ _ hc
  obtain rfl := Option.some.inj (hrow.symm.trans hrow')
  have hpaymentId : x.recoveryCase.paymentId = c.paymentId :=
    hbecomes.paymentId.symm.trans hbecomes'.paymentId
  -- and payments do not change
  have hpayment := hx.payment
  rw [hpaymentId] at hpayment
  have holder : (History.replay older).Evolves v.shared.db := by
    rw [Reachable.db_eq hv', hsplit]
    rw [hsplit] at hl
    exact hl.evolves_of_split
  have heq := (holder.payment _ _ hpayment).symm.trans (hev.payment _ _ hp)
  obtain rfl := Option.some.inj heq
  exact ⟨hx.amount, hx.currency⟩

/-- The operation was answered with recommendations, by the AI or its fallback. -/
def Answered (H : History) (t : Tid) : Prop :=
  ∀ context error, (t, .recommended context (.error error)) ∉ H

/-- **AI output does not interfere with money.** Two diagnoses of one case from one state,
whatever the AI answers to each and whatever else differs, leave the same ledger; if the AI
answers at all, the case is as eligible after the one as after the other. And however the
two runs go on, their calls of the provider for the case ask for the same amount and
currency. -/
theorem diagnosis_noninterfering {w : World} (hw : Reachable w)
    (hcase : (w.shared.db.recoveryCases.get? caseId).isSome) {correlationId' : String}
    {is is' : List Input} {r' : Outcome} {s s' : State}
    (h : machine.perform? w.threads.length (.diagnose caseId correlationId) is w.shared = some (r, s))
    (h' : machine.perform? w.threads.length (.diagnose caseId correlationId') is' w.shared =
      some (r', s')) :
    s.db.SameLedger s'.db ∧
    (Answered s.history w.threads.length → Answered s'.history w.threads.length →
      (s.db.recoveryCases.get? caseId).map RecoveryCase.eligible =
        (s'.db.recoveryCases.get? caseId).map RecoveryCase.eligible) ∧
    ∀ {v v' : World},
      machine.Reaches ⟨s, w.threads ++ [⟨.diagnose caseId correlationId, none⟩]⟩ v →
      machine.Reaches ⟨s', w.threads ++ [⟨.diagnose caseId correlationId', none⟩]⟩ v' →
      ∀ {u u' : Tid} {request request' : CreatePaymentLinkRequest}
        {made made' : Option PaymentLinkSnapshot}
        {answer answer' : Except ProviderException PaymentLinkSnapshot},
        (u, .created caseId request made answer) ∈ v.shared.history →
        (u', .created caseId request' made' answer') ∈ v'.shared.history →
        request.amount = request'.amount ∧ request.currency = request'.currency := by
  obtain ⟨es, ha, hdb⟩ := alone_of_perform? hw h
  obtain ⟨es', ha', hdb'⟩ := alone_of_perform? hw h'
  -- The case has its payment, and the payment its customer.
  obtain ⟨c, hc⟩ := Option.isSome_iff_exists.mp hcase
  have hl := ha.before
  have hcH := hc
  rw [Reachable.db_eq hw] at hcH
  obtain ⟨p, hp, hpid, -⟩ := (hl.caseInv hcH).payment
  rw [Db.PaymentSeen, hpid] at hp
  have hcustomer := (hl.of_payment (Table.mem_of_get? hp)).2
  rw [hdb, hdb']
  refine ⟨ha.diagnoses.sameLedger.trans' ha'.diagnoses.sameLedger, fun hans hans' => ?_,
    fun hv hv' _ _ _ _ _ _ _ _ hcall hcall' => ?_⟩
  · -- Both find the same case, so they find it equally eligible.
    rw [ha.diagnoses.eligible ⟨c, p, hcH, hp, hcustomer⟩ fun context error hmem =>
        hans context error (ha.mem hmem),
      ha'.diagnoses.eligible ⟨c, p, hcH, hp, hcustomer⟩ fun context error hmem =>
        hans' context error (ha'.mem hmem)]
  · -- Both calls are for the payment of the case as it was in `w`.
    rw [← Reachable.db_eq hw] at hp
    have hreq := hw.request_of_created ((Machine.reaches_of_perform? h).trans hv) hc hp hcall
    have hreq' := hw.request_of_created ((Machine.reaches_of_perform? h').trans hv') hc hp hcall'
    exact ⟨hreq.1.trans hreq'.1.symm, hreq.2.trans hreq'.2.symm⟩

set_option maxRecDepth 10000 in
theorem diagnosis_noninterfering_sample : ∃ r s r' s',
    Sample.diagnosis 500 (by decide) .sendPaymentLink = some (r, s) ∧
    Sample.diagnosis 500 (by decide) .escalate = some (r', s') ∧
    s.db.statusOf 3 = some .approved ∧ s'.db.statusOf 3 = some .escalated ∧
    s.db.SameLedger s'.db := by
  have hsome : (Sample.diagnosis 500 (by decide) .sendPaymentLink).any
      (fun x => x.2.db.statusOf 3 = some .approved) = true := by decide +kernel
  have hsome' : (Sample.diagnosis 500 (by decide) .escalate).any
      (fun x => x.2.db.statusOf 3 = some .escalated) = true := by decide +kernel
  obtain ⟨⟨r, s⟩, h, hs⟩ := (Option.any_eq_true _ _).mp hsome
  obtain ⟨⟨r', s'⟩, h', hs'⟩ := (Option.any_eq_true _ _).mp hsome'
  exact ⟨r, s, r', s', h, h', of_decide_eq_true hs, of_decide_eq_true hs',
    (diagnosis_noninterfering (World.reachable_after _) (by decide +kernel) h h').1⟩

/-! ### A person decides -/

/-- What the policy has against an escalation in review: the amount, or nothing. -/
theorem violatedRules_escalate {input : PolicyEvaluationInput} {config : PolicyConfig}
    (hstatus : input.caseStatus = .policyReview) (haction : input.proposedAction = .escalate) :
    violatedRules input config =
      if input.amount ≤ 0 ∨ input.amount > config.maxRecoveryAmount then [.amountOutOfBounds]
      else [] := by
  -- Of all the rules only the one about the amount applies to an escalation.
  have hterminal : RecoveryCaseStatus.policyReview ∉ terminalRecoveryCaseStatuses := by decide
  have heligible : RecoveryCaseStatus.policyReview ∈ actionEligibleStatuses .escalate := by decide
  have hactive : RecoveryAction.escalate ∉ activeRecoveryActions := by decide
  have hcontact : RecoveryAction.escalate ∉ contactActions := by decide
  simp [violatedRules, hstatus, haction, hterminal, heligible, hactive, hcontact,
    confidenceGatedActions]

/-- The policy stops a case of too high an amount, whatever is recommended. -/
theorem Diagnosis.next_eq_escalated_iff {d : Diagnosis}
    (haction : d.outcome.recommendation.recommendedAction = .escalate)
    (hpos : 0 < d.payment.amount) :
    d.next.1 = .escalated ↔ d.payment.amount ≤ d.config.maxRecoveryAmount := by
  have hrules : violatedRules (diagnosisPolicyInput d.inReview d.payment d.outcome.recommendation
      d.now) d.config = _ := violatedRules_escalate rfl haction
  have hamount : ¬ (diagnosisPolicyInput d.inReview d.payment d.outcome.recommendation
      d.now).amount ≤ 0 := not_le.mpr hpos
  unfold next decision evaluatePolicy
  simp only [hrules, haction, hamount, false_or]
  by_cases hle : d.payment.amount ≤ d.config.maxRecoveryAmount
  · -- Within the bound nothing is violated, and the action is followed.
    have hbound : ¬ (diagnosisPolicyInput d.inReview d.payment d.outcome.recommendation
        d.now).amount > d.config.maxRecoveryAmount := not_lt.mpr hle
    simp [resolveNextStatus, hbound, hle]
  · -- Above it the case is stopped for a hard reason.
    have hbound : (diagnosisPolicyInput d.inReview d.payment d.outcome.recommendation
        d.now).amount > d.config.maxRecoveryAmount := not_le.mp hle
    simp [resolveNextStatus, hbound, hle, hardStopReasonCodes]

/-- A case that fails no check, and a recommendation: the diagnosis goes through. -/
theorem Diagnoses.goesThrough {db db' : Db} (h : Diagnoses db caseId es r db') {c : RecoveryCase}
    {p : Payment} (hc : db.recoveryCases.get? caseId = some c)
    (hp : db.payments.get? c.paymentId = some p) (hcustomer : db.CustomerExists p.customerId)
    (hstatus : c.status = .failed ∨ c.status = .discovered ∧ p.status = .failed ∧ 0 < p.amount)
    (hanswered : ∀ context error, .recommended context (.error error) ∉ es) :
    ∃ (d : Diagnosis) (settings : Settings) (now : Time), d.before = c ∧ d.payment = p ∧
      d.config = getPolicyConfig settings ∧ es = .committed d.stmts :: d.reads settings now ∧
      db' = Store.applyAll d.stmts db := by
  cases h with
  | failed e why =>
    cases why with
    -- Everything it needs is there.
    | missing hmissing => exact absurd ⟨c, p, hc, hp, hcustomer⟩ hmissing
    -- It is in a status it is diagnosed in.
    | undiagnosable c' hc' hnot =>
      obtain rfl := Option.some.inj (hc.symm.trans hc')
      rcases hstatus with hs | ⟨hs, -⟩ <;> rw [hs] at hnot <;> exact absurd (by decide) hnot
    | unanswered context error hmem => exact absurd hmem (hanswered context error)
  | turnedAway d response read status ineligible =>
    obtain rfl := Option.some.inj (hc.symm.trans read.row)
    obtain rfl := Option.some.inj (hp.symm.trans read.payment)
    -- It was FAILED, which does not pass the door; or the payment is eligible.
    rcases hstatus with hfailed | ⟨-, hfailed, hpos⟩
    · rw [hfailed] at status
      cases status
    · rw [Diagnosis.eligible, decide_eq_false_iff_not] at ineligible
      exact absurd ⟨hfailed, hpos⟩ ineligible
  | diagnosed d response settings now read status admitted config events =>
    exact ⟨d, settings, now, Option.some.inj (read.row.symm.trans hc),
      Option.some.inj (read.payment.symm.trans (Option.some.inj (read.row.symm.trans hc) ▸ hp)),
      config, events, rfl⟩

/-- **When an escalation reaches a person.** For every case that is diagnosed, whatever
the configuration: if the AI, or its fallback, recommends to escalate, then the case is
committed as ESCALATED exactly if its amount is within the bound of the policy. -/
theorem escalated_iff {w : World} (hw : Reachable w) {is : List Input} {s' : State}
    (h : machine.perform? w.threads.length (.diagnose caseId correlationId) is w.shared = some (r, s'))
    {c : RecoveryCase} {p : Payment} (hc : w.shared.db.recoveryCases.get? caseId = some c)
    (hp : w.shared.db.payments.get? c.paymentId = some p)
    (hstatus : c.status = .failed ∨ c.status = .discovered ∧ p.status = .failed ∧ 0 < p.amount)
    {maxRecoveryAmount : Int}
    (hsettings : ∀ settings, (w.threads.length, .configured settings) ∈ s'.history →
      settings.policyMaxRecoveryAmount = maxRecoveryAmount)
    (hai : ∀ context answer, (w.threads.length, .recommended context answer) ∈ s'.history →
      ∃ outcome, answer = .ok outcome ∧ outcome.recommendation.recommendedAction = .escalate) :
    s'.db.statusOf caseId = some .escalated ↔ p.amount ≤ maxRecoveryAmount := by
  obtain ⟨es, ha, hdb⟩ := alone_of_perform? hw h
  rw [hdb]
  rw [Reachable.db_eq hw] at hc hp
  have hpayment := ha.before.of_payment (Table.mem_of_get? hp)
  -- Every answer is a recommendation to escalate, so none is an exception.
  have hanswered : ∀ context error, .recommended context (.error error) ∉ es := by
    intro context error hmem
    obtain ⟨outcome, ho, -⟩ := hai context _ (ha.mem hmem)
    cases ho
  obtain ⟨d, settings, now, rfl, rfl, hconfig, hes, hafter⟩ :=
    ha.diagnoses.goesThrough hc hp hpayment.2 hstatus hanswered
  -- What the diagnosis has read is in the record of the run.
  have hmem : ∀ e ∈ d.reads settings now, (w.threads.length, e) ∈ s'.history := fun e he =>
    ha.mem (by rw [hes]; exact List.mem_cons_of_mem _ he)
  obtain rfl := hsettings settings (hmem _ (by simp [Diagnosis.reads]))
  obtain ⟨outcome, ho, haction⟩ := hai (buildContext d.payment d.customer d.attempts now)
    (.ok d.outcome) (hmem _ (by simp [Diagnosis.reads]))
  obtain rfl := Except.ok.inj ho
  have hid : d.before.id = caseId := Table.key_of_get? hc
  rw [← hid] at hc
  rw [hafter, Db.statusOf, ← hid, d.turns_stmts _ hc, if_pos rfl, Option.map_some, Option.some.injEq,
    d.after_status, Diagnosis.next_eq_escalated_iff haction hpayment.1, hconfig]
  rfl

/-- The AI, or its fallback, recommends to escalate. -/
def Event.escalates : Event → Bool
  | .recommended _ (.ok outcome) => outcome.recommendation.recommendedAction = .escalate
  | .recommended _ (.error _) => false
  | _ => true

/-- Such an answer carries the recommendation. -/
theorem Event.exists_of_escalates {context : PaymentRecoveryContext}
    {answer : Except Raised AIOutcome} (h : (Event.recommended context answer).escalates = true) :
    ∃ outcome, answer = .ok outcome ∧ outcome.recommendation.recommendedAction = .escalate := by
  cases answer with
  | error error => cases h
  | ok outcome => exact ⟨outcome, rfl, of_decide_eq_true h⟩

/-- The bound of the policy is the given one. -/
def Event.bounds (maxRecoveryAmount : Int) : Event → Bool
  | .configured settings => settings.policyMaxRecoveryAmount = maxRecoveryAmount
  | _ => true

/-- A search of the record finds every answer. -/
theorem exists_of_all {t : Tid} {s : State} (h : s.history.all (fun p => p.2.escalates) = true)
    (context : PaymentRecoveryContext) (answer : Except Raised AIOutcome)
    (hmem : (t, .recommended context answer) ∈ s.history) :
    ∃ outcome, answer = .ok outcome ∧ outcome.recommendation.recommendedAction = .escalate :=
  Event.exists_of_escalates (List.all_eq_true.mp h _ hmem)

set_option maxRecDepth 10000 in
theorem escalated_iff_small : ∃ r s', Sample.diagnosis 500 (by decide) .escalate = some (r, s') ∧
    (s'.db.statusOf 3 = some .escalated ↔ (500 : Int) ≤ 10_000_000) := by
  have hsome : (Sample.diagnosis 500 (by decide) .escalate).isSome = true := by decide +kernel
  obtain ⟨⟨r, s'⟩, h⟩ := Option.isSome_iff_exists.mp hsome
  refine ⟨r, s', h, ?_⟩
  -- The case and its payment, as the run has left them.
  have hcase : ∃ c ∈ (Sample.opened 500 (by decide)).shared.db.recoveryCases.get? 3,
      ∃ p ∈ (Sample.opened 500 (by decide)).shared.db.payments.get? c.paymentId,
        c.status = .discovered ∧ p.status = .failed ∧ p.amount = 500 := by decide +kernel
  obtain ⟨c, hc, p, hp, hstatus, hfailed, hamount⟩ := hcase
  have hall : ∀ x ∈ Sample.diagnosis 500 (by decide) .escalate,
      x.2.history.all (fun p => p.2.escalates) = true := by decide +kernel
  have hbound : ∀ x ∈ Sample.diagnosis 500 (by decide) .escalate, x.2.history.all (fun p =>
      p.2.bounds 10_000_000) = true := by decide +kernel
  rw [← hamount]
  exact escalated_iff (World.reachable_after _) h hc hp
    (.inr ⟨hstatus, hfailed, by rw [hamount]; decide⟩)
    (fun settings hmem => of_decide_eq_true (List.all_eq_true.mp (hbound _ h) _ hmem))
    (exists_of_all (hall _ h))

set_option maxRecDepth 10000 in
/-- **An escalation that does not reach a person**: a payment above the bound of the policy,
which the AI recommends to escalate, is stopped. -/
theorem stopped_of_escalation : ∃ r s', Sample.diagnosis 20_000_000 (by decide) .escalate = some (r, s') ∧
    (∀ t context answer, (t, .recommended context answer) ∈ s'.history → ∃ outcome,
      answer = .ok outcome ∧ outcome.recommendation.recommendedAction = .escalate) ∧
    s'.db.statusOf 3 = some .stopped := by
  have hsome : (Sample.diagnosis 20_000_000 (by decide) .escalate).isSome = true := by decide +kernel
  obtain ⟨⟨r, s'⟩, h⟩ := Option.isSome_iff_exists.mp hsome
  have hall : ∀ x ∈ Sample.diagnosis 20_000_000 (by decide) .escalate,
      x.2.history.all (fun p => p.2.escalates) = true ∧ x.2.db.statusOf 3 = some .stopped := by
    decide +kernel
  exact ⟨r, s', h, fun t => exists_of_all (hall _ h).1, (hall _ h).2⟩

end RecoverAI
