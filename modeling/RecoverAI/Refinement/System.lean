import RecoverAI.Refinement.Orchestrator
import RecoverAI.Refinement.Webhook

/-!
# The system keeps the protocol

Every operation, from its start to the delivery of its outcome, keeps `Guarantee`
(`certified`). From here on, facts about runs are facts about guaranteed changes.
-/

namespace RecoverAI

open Interleave

variable {t : Tid} {h : List Event} {s : State} {op : Op}

/-! ### Endings -/

/-- What an operation has been started with, it has been started with alone. -/
theorem Grows.eq_of_started {op' : Op} (hg : Grows [.started op] h) (hop : .started op' ∈ h) :
    op' = op := by
  have hmem := hg.started op' hop
  rw [List.mem_singleton, Event.started.injEq] at hmem
  exact hmem

/-- What each operation has to show of its own ending. -/
def EndsAs (h : List Event) (db : Db) (outcome : Outcome) : Op → Prop
  | .ingest request _ =>
    (∀ response, outcome = .ok (.paymentIngested response) → ∃ payment, db.PaymentSeen payment ∧
      payment.id = response.paymentId ∧ payment.providerPaymentId = request.providerPaymentId) ∧
    ∀ e, outcome = .error e → Faulty h
  | .createCase paymentId _ => CreationEnded h db paymentId outcome
  | .discover _ _ => SweepEnded h db outcome
  | .diagnose caseId correlationId => DiagnosisEnded h db caseId correlationId outcome
  | .execute caseId _ =>
    (∀ response, outcome = .ok (.executed response) → response.executed = true →
      ∃ recoveryCase attempt link id completedAt correlationId t,
        .committed (recordStmts recoveryCase attempt link id completedAt correlationId t) ∈ h ∧
          recoveryCase.id = caseId ∧ response.providerReference = some link.providerReference ∧
          response.amount = some link.amount) ∧
    (¬ Acted h caseId → commits h = [] ∧ Lost h caseId outcome)
  | .webhook event _ =>
    (event.eventType ≠ none → (∃ r, outcome = .ok r) → db.Claimed event.dedupKey) ∧ Delivered h event outcome ∧
    ∃ F, Facts F db ∧ Handled h F
  | .cycle budget _ =>
    (∃ report, outcome = .ok (.cycled report) ∧ Nonempty (CycleRun budget report h)) ∨
    ∃ e, outcome = .error e

/-- An operation that shows its own ending ends as the protocol allows: the record names no
other operation. -/
theorem Ended.of_endsAs {db : Db} {outcome : Outcome} (hg : Grows [.started op] h)
    -- Each field is about the operation it names; that is this one, or there is nothing to show.
    (hend : (phase h).MayEnd) (hop : EndsAs h db outcome op) : Ended h db outcome where
  mayEnd := hend
  executed := by
    -- The record names one operation: this field is about it.
    intro _ _ response hst
    obtain rfl := hg.eq_of_started hst
    exact hop.1 response
  lost := by
    intro _ _ hst
    obtain rfl := hg.eq_of_started hst
    exact hop.2
  claimed := by
    intro _ _ hst
    obtain rfl := hg.eq_of_started hst
    exact hop.1
  delivered := by
    intro _ _ hst
    obtain rfl := hg.eq_of_started hst
    exact hop.2.1
  diagnosed := by
    intro _ _ hst
    obtain rfl := hg.eq_of_started hst
    exact hop
  ingested := by
    intro _ _ response hst
    obtain rfl := hg.eq_of_started hst
    exact hop.1 response
  faulty := by
    intro _ _ e hst
    obtain rfl := hg.eq_of_started hst
    exact hop.2 e
  created := by
    intro _ _ hst
    obtain rfl := hg.eq_of_started hst
    exact hop
  swept := by
    intro _ _ hst
    obtain rfl := hg.eq_of_started hst
    exact hop
  handled := by
    intro _ _ paymentLinkId link hst hread
    obtain rfl := hg.eq_of_started hst
    obtain ⟨-, -, F, hF, hhandled⟩ := hop
    obtain ⟨reference, found, hfound, hout⟩ := hhandled paymentLinkId link hread
    exact ⟨reference, found, hfound, fun loaded hf he =>
      hF (.outdated loaded.recoveryCase) (hout loaded hf he)⟩
  cycled := by
    intro _ _ hst
    obtain rfl := hg.eq_of_started hst
    exact hop

/-- In the common case nothing is in hand at the end. -/
theorem Ended.of_resumes {db : Db} {outcome : Outcome} (hr : Resumes [.started op] h)
    (hop : EndsAs h db outcome op) : Ended h db outcome :=
  .of_endsAs hr.toGrows (by rw [hr.idle]; trivial) hop

/-! ### The operations -/

/-- An operation behind its constructor of `Response`. -/
theorem run_map_eq {α : Type} (f : α → Response) (x : Service α) :
    (f <$> x).run = x.run >>= fun
      | .ok a => .done (.ok (f a))
      | .error e => .done (.error e) := by
  rw [← bind_pure (f <$> x).run, run_map_bind]
  rfl

/-- No operation but a delivery is one, and none begins with a diagnosis under way. -/
theorem between_of_ne (hwebhook : ∀ event correlationId, op ≠ .webhook event correlationId) :
    Between [.started op] where
  not_started := by
    intro event correlationId hst
    rw [List.mem_singleton, Event.started.injEq] at hst
    exact hwebhook event correlationId hst.symm
  closed := rfl

/-- **Every operation keeps the protocol.** -/
theorem follows_service (hs : Here t [] [.started op] [] s) : Follows t op.service.run s := by
  have hbetween : (∀ event correlationId, op ≠ .webhook event correlationId) →
      Between [.started op] := between_of_ne
  cases op with
  | ingest request correlationId =>
    have := hbetween (by simp)
    rw [Op.service, run_map_eq]
    refine follows_ingestPayment rfl List.mem_cons_self hs (fun response h' G s hr ha hs => ?_)
      fun e h' p s hr _ hf hs => ?_
    · -- An ingestion that answers names the payment it has seen.
      refine follows_done hs fun db hF => .of_resumes hr ⟨fun response' he => ?_, by simp⟩
      obtain rfl := Response.paymentIngested.inj (Except.ok.inj he)
      obtain ⟨payment, hmem, hid, hpid⟩ := ha
      exact ⟨payment, hF (.paymentSeen payment) hmem, hid, hpid⟩
    · exact follows_done hs fun db _ => .of_resumes hr ⟨by simp, fun _ _ => hf⟩
  | createCase paymentId correlationId =>
    have := hbetween (by simp)
    rw [Op.service, run_map_eq]
    exact follows_createRecoveryCaseForPayment rfl hs
      (fun response h' G s (hr : Proceeds none _ h') hc hs =>
        -- A creation answers with a case that is there.
        follows_done hs fun db hG => .of_resumes hr.toResumes (hc db hG))
      fun e h' s hr hc hs => follows_done hs fun db _ => .of_resumes hr (hc db)
  | discover limit correlationId =>
    have := hbetween (by simp)
    rw [Op.service, run_map_eq]
    refine follows_discoverFailedPayments rfl hs
      (fun report h' G s (hr : Proceeds none _ h') _ hswept hs => ?_)
      fun h' s hr hrefused hs => follows_done hs fun db _ => .of_resumes hr hrefused
    rw [List.append_nil] at hs
    exact follows_done hs fun db hG => .of_resumes hr.toResumes (hswept db hG)
  | diagnose caseId correlationId =>
    have := hbetween (by simp)
    rw [Op.service, run_map_eq]
    have hbegun : ∀ loaded, Grows [.started (.diagnose caseId correlationId)] _ := fun loaded =>
      (Grows.refl _).cons (e := .selected (.caseForDiagnosis caseId) loaded) (by simp)
    refine follows_diagnoseRecoveryCase rfl hs (fun loaded response h' s hd hs => ?_)
      fun loaded e h' G p s _ _ hf hs => ?_
    · -- A whole diagnosis, from its select to its commit.
      exact follows_done hs fun db _ => .of_endsAs ((hbegun loaded).trans hd.toGrows)
        (by rw [hd.idle]; trivial) hd.whole
    · -- One that raises has committed nothing, and knows why.
      exact follows_done hs fun db hF => .of_endsAs ((hbegun loaded).trans hf.toGrows)
        (by rw [hf.idle]; trivial) ⟨hf.commits, hf.undiagnosed db hF⟩
  | execute caseId correlationId =>
    have := hbetween (by simp)
    rw [Op.service, run_map_eq]
    -- An execution by itself has no budget to keep.
    have hwithin : Within [.started (.execute caseId correlationId)] := by
      intro budget correlationId hst
      simp at hst
    have hbegun : ∀ loaded, Grows [.started (.execute caseId correlationId)] _ := fun loaded =>
      (Grows.refl _).cons (e := .selected (.caseForExecution caseId) loaded) (by simp)
    refine follows_executeRecoveryCase rfl hwithin hs (fun loaded response h' s hf hs => ?_)
      fun loaded e p h' s hstale hst hs => ?_
    · refine follows_done hs fun db _ => .of_endsAs ((hbegun loaded).trans hf.toGrows)
        (by rw [hf.idle]; trivial) ⟨fun response' he => ?_, fun hc => ?_⟩
      · -- The link it reports was recorded.
        obtain rfl := Response.executed.inj (Except.ok.inj he)
        exact hf.executed
      · exact absurd hf.acted hc
    · -- One that raises has changed the case, or lost it to another operation.
      refine follows_done hs fun db _ => .of_endsAs ((hbegun loaded).trans hst.toGrows) hst.mayEnd
        ⟨by simp, fun hc => ?_⟩
      obtain ⟨hnone, hlost⟩ := hst.lost.resolve_left hc
      exact ⟨hnone, hlost.resolve_left hstale⟩
  | webhook event correlationId =>
    rw [Op.service, run_map_eq]
    refine follows_processWebhookEvent rfl (by simp [LinksRead]) hs List.mem_cons_self
      (fun result h' G s hr hd hh hc hs => ?_) fun e h' G s hr hd hh hs => ?_
    · -- A delivery that answers has claimed its event, or found it claimed.
      exact follows_done hs fun db hF => .of_resumes hr
        ⟨fun htype _ => hF (.claimed event.dedupKey) (hc htype), hd, G, hF, hh⟩
    · exact follows_done hs fun db hF => .of_resumes hr ⟨by simp, hd, G, hF, hh⟩
  | cycle budget correlationId =>
    rw [Op.service, run_map_eq]
    refine follows_runRecoveryCycle hs (fun report h' s hr hrun hs => ?_)
      fun e p h' s hg hend hs => ?_
    · -- A cycle that returns has the record its report speaks of.
      exact follows_done hs fun db _ => .of_resumes hr (.inl ⟨report, rfl, hrun⟩)
    · exact follows_done hs fun db _ => .of_endsAs hg hend (.inr ⟨e, rfl⟩)

/-! ### The machine -/

/-- Before it is started, an operation has done nothing. -/
theorem here_initial : Here t [] [] [] State.initial where
  consistent := ⟨.of_db Db.empty, .empty⟩
  pending := rfl
  own := rfl
  facts := by simp [Facts]

/-- **The system is certified.** -/
theorem certified : Certified machine Guarantee State.initial where
  start := by
    -- The start leaves its event, and permits it by an empty record.
    intro t op s hr
    have hs := here_initial.rely hr
    refine ⟨some (.started op), moves_emit s t (.started op) (by simp), fun e he _ => ?_⟩
    obtain rfl := Option.some.inj he
    exact hs.own
  body := by
    intro t op s hr
    -- The service begins with the start in the record and nothing flushed.
    exact follows_service (here_initial.rely hr).emit
  crash := by
    intro t s
    refine ⟨some (.ended none), ⟨rfl, rfl, by simp, fun u hu => ?_, fun hi => hi.rollback t⟩,
      fun e he _ => ?_⟩
    · -- A kill drops what is pending, and leaves an end without an outcome.
      exact Txns.rollback_pendingOf_ne hu
    · obtain rfl := Option.some.inj he
      trivial

end RecoverAI
