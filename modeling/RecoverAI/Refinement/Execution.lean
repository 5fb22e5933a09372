import RecoverAI.Refinement.Common

/-!
# The execution service keeps the protocol

From the claim of a case to the record of its link, the phase of the operation says
which of its transactions is next. What an execution leaves behind is `Finished`
when it returns and `Stopped` when it raises.
-/

namespace RecoverAI

open Interleave

variable {t : Tid} {p : List Stmt} {h h₀ : List Event} {F : List Fact} {s : State}
  {K : Except Raised ExecutionResponse → Prog sig Outcome} {caseId : Uuid} {c : RecoveryCase}
  {attempt : RecoveryAttempt}

/-! ### What an execution leaves behind -/

/-- An execution of `caseId` is at work: it has recorded no link yet. -/
structure Works (h₀ : List Event) (caseId : Uuid) (h : List Event) : Prop extends Grows h₀ h where
  adds : Adds (Event.In (some caseId)) h₀ h
  links : linksOf h = linksOf h₀

/-- One more event at work. -/
theorem Works.cons {e : Event} (hw : Works h₀ caseId h) (he : ∀ op, e ≠ .started op)
    (hof : e.In (some caseId)) (hlinks : e.links = []) : Works h₀ caseId (e :: h) where
  -- The newest event starts nothing, stays with the case and records no link.
  toGrows := hw.toGrows.cons he
  adds := hw.adds.cons hof
  links := by rw [linksOf_cons, hlinks, List.nil_append, hw.links]

/-- An execution that has only read and flushed is at work. -/
theorem Proceeds.works (hr : Proceeds (some caseId) h₀ h) : Works h₀ caseId h where
  toGrows := hr.toGrows
  adds := hr.adds.mono fun _ he => he.toIn
  links := hr.adds.linksOf_eq

/-- No diagnosis begins at work. -/
theorem Works.between [hh : Between h₀] (hw : Works h₀ caseId h) : Between h where
  toNotDelivery := hw.toGrows.notDelivery
  closed := hw.adds.diagnosing_eq_none hh.closed

/-- At work, a cycle spends nothing of its budget. -/
theorem Within.of_works (hwithin : Within h₀) (hw : Works h₀ caseId h) : Within h := by
  -- The budget counts the links recorded, and there is none since.
  intro budget correlationId hst
  rw [hw.links]
  exact hwithin budget correlationId (hw.started _ hst)

/-- A select spends nothing. -/
theorem Within.selected (hwithin : Within h) (q : Query) (r : q.Result) :
    Within (.selected q r :: h) :=
  fun budget correlationId hst =>
    hwithin budget correlationId ((List.mem_cons.mp hst).resolve_left (by simp))

/-- An execution of `caseId` has returned. -/
structure Finished (h₀ : List Event) (caseId : Uuid) (response : ExecutionResponse)
    (h : List Event) : Prop extends Resumes h₀ h where
  acted : Acted h caseId
  executed : response.executed = true →
    ∃ recoveryCase attempt link id completedAt correlationId t,
      .committed (recordStmts recoveryCase attempt link id completedAt correlationId t) ∈ h ∧
        recoveryCase.id = caseId ∧ response.providerReference = some link.providerReference ∧
        response.amount = some link.amount
  adds : Adds (Event.In (some caseId)) h₀ h
  leaves : ∃ sts rest, h = .committed sts :: rest ∧ h₀ <:+ rest ∧
    Leaves .execution sts caseId response.caseStatus
  links : if response.executed then ∃ l, linksOf h = l :: linksOf h₀ ∧ l.recoveryCaseId = caseId
    else linksOf h = linksOf h₀
  status : response.caseStatus ≠ .approved

/-- An execution of `caseId` has raised `e` with the statements `p` flushed. -/
structure Stopped (h₀ : List Event) (caseId : Uuid) (e : Raised) (p : List Stmt)
    (h : List Event) : Prop extends Grows h₀ h where
  mayEnd : (phase h).MayEnd
  idle : e = .staleData ∨ (∃ e', e = .recoverAI e') → phase h = .idle
  clean : Spares h₀ p e
  lost : Acted h caseId ∨
    (commits h = commits h₀ ∧ (e = .staleData ∨ Lost h caseId (.error e)))
  adds : Adds (Event.In (some caseId)) h₀ h
  links : linksOf h = linksOf h₀

/-- The continuation after an execution that returned. -/
abbrev OnFinish (t : Tid) (h₀ : List Event) (caseId : Uuid) (F : List Fact)
    (K : Except Raised ExecutionResponse → Prog sig Outcome) : Prop :=
  ∀ response h s, Finished h₀ caseId response h → Here t [] h F s →
    Follows t (K (.ok response)) s

/-- The continuation after an execution that raised. -/
abbrev OnStop (t : Tid) (h₀ : List Event) (caseId : Uuid) (F : List Fact)
    (K : Except Raised ExecutionResponse → Prog sig Outcome) : Prop :=
  ∀ e p h s, Stopped h₀ caseId e p h → Here t p h F s → Follows t (K (.error e)) s

/-- The execution has changed its case, which was therefore not lost. -/
structure Late (h₀ : List Event) (caseId : Uuid) (h : List Event) : Prop extends Works h₀ caseId h where
  acted : Acted h caseId

namespace Late

variable (hl : Late h₀ caseId h)
include hl

/-- One more event. -/
theorem cons {e : Event} (he : ∀ op, e ≠ .started op) (hof : e.In (some caseId))
    (hlinks : e.links = []) : Late h₀ caseId (e :: h) where
  toWorks := hl.toWorks.cons he hof hlinks
  acted := hl.acted.cons e

/-- The clock is read. -/
theorem clock (now : Time) : Late h₀ caseId (.clock now :: h) :=
  hl.cons (by simp) (Event.in_of_quiet rfl rfl rfl) rfl

/-- The settings are read. -/
theorem configured (settings : Settings) : Late h₀ caseId (.configured settings :: h) :=
  hl.cons (by simp) (Event.in_of_quiet rfl rfl rfl) rfl

/-- A transaction of the case that records no link. -/
theorem committed {sts : List Stmt} (hsolely : Solely caseId sts)
    (hlinks : sts.filterMap Stmt.linkInsert? = []) : Late h₀ caseId (.committed sts :: h) :=
  hl.cons (by simp) ⟨rfl, hsolely.cases, rfl⟩ hlinks

end Late

/-- The transaction that ends an execution. -/
theorem Finished.of_committed {sts : List Stmt} {response : ExecutionResponse}
    (hw : Works h₀ caseId h) (hidle : (phase h).next (.committed sts) = .idle)
    (hacted : Acted (.committed sts :: h) caseId) (hsolely : Solely caseId sts)
    (hleaves : Leaves .execution sts caseId response.caseStatus)
    (hstatus : response.caseStatus ≠ .approved)
    (hlinks : if response.executed then
        ∃ l, sts.filterMap Stmt.linkInsert? = [l] ∧ l.recoveryCaseId = caseId
      else sts.filterMap Stmt.linkInsert? = [])
    (hexecuted : response.executed = true →
      ∃ recoveryCase attempt link id completedAt correlationId t,
        sts = recordStmts recoveryCase attempt link id completedAt correlationId t ∧
          recoveryCase.id = caseId ∧ response.providerReference = some link.providerReference ∧
          response.amount = some link.amount) :
    Finished h₀ caseId response (.committed sts :: h) where
  toGrows := hw.toGrows.cons (by simp)
  idle := hidle
  closed := fun _ => diagnosing_cons_of_concludes rfl rfl
  acted := hacted
  executed := by
    intro he
    obtain ⟨c, attempt, link, id, completedAt, correlationId, now, rfl, hrest⟩ := hexecuted he
    exact ⟨c, attempt, link, id, completedAt, correlationId, now, List.mem_cons_self, hrest⟩
  adds := hw.adds.cons ⟨rfl, hsolely.cases, rfl⟩
  leaves := ⟨sts, h, rfl, hw.suffix, hleaves⟩
  links := by
    -- The links of the record are those of the last transaction and those from before the
    -- execution.
    have hcons : linksOf (.committed sts :: h) = sts.filterMap Stmt.linkInsert? ++ linksOf h₀ := by
      rw [linksOf_cons, hw.links]
      rfl
    split_ifs at hlinks ⊢
    · obtain ⟨l, hl, hcase⟩ := hlinks
      exact ⟨l, by rw [hcons, hl]; rfl, hcase⟩
    · rw [hcons, hlinks, List.nil_append]
  status := hstatus

/-- After a transaction, an execution that raises has lost nothing. -/
theorem Stopped.of_late {e : Raised} (hl : Late h₀ caseId h) (hidle : phase h = .idle)
    (hclean : Spares h₀ p e) : Stopped h₀ caseId e p h where
  toGrows := hl.toGrows
  mayEnd := by rw [hidle]; trivial
  idle := fun _ => hidle
  clean := hclean
  lost := .inl hl.acted
  adds := hl.adds
  links := hl.links

/-- A refused flush leaves nothing in hand. -/
theorem Stopped.of_refused {sts : List Stmt} {e : DbError} (hl : Late h₀ caseId h) :
    Stopped h₀ caseId e.raised [] (.refused sts e :: h) := by
  have hl := hl.cons (e := .refused sts e) (by simp) (Event.in_of_quiet rfl rfl rfl) rfl
  exact .of_late hl (by rw [phase_cons, Phase.next_refused]) fun _ _ _ => rfl

/-- With its attempt noted, an execution may find that its link would never expire. -/
theorem Stopped.of_attempted {message : String} (hl : Late h₀ caseId h)
    (hph : phase h = .attempted c attempt) : Stopped h₀ caseId (.other message) p h where
  toGrows := hl.toGrows
  mayEnd := by rw [hph]; trivial
  -- Out of range is no domain error, so nothing is said of the phase.
  idle := by
    rintro (he | ⟨_, he⟩)
    · cases he
    · cases he
  clean := by simp [Spares]
  lost := .inl hl.acted
  adds := hl.adds
  links := hl.links

/-! ### Giving up -/

/-- `_escalate`, whatever was flushed before it. -/
theorem follows_escalate {reason correlationId : String} {decision : Option PolicyDecision}
    (hs : Here t p h F s) (hv : canTransition c.status .escalated)
    (hrefused : ∀ db e, Facts F db → Store.checkAll p db = none →
      Store.checkAll [.updateCase c { c with status := .escalated }] (Store.applyAll p db) = some e →
      Refused h db [.updateCase c { c with status := .escalated }] e)
    (hcommit : ∀ now db, Facts F db → Txn (.clock now :: h) db
      (p ++ transitionStmts c c .escalated correlationId (some reason) [] now))
    (hk : ∀ now response s', response.executed = false → response.caseStatus = .escalated →
      Here t [] (.committed (p ++ transitionStmts c c .escalated correlationId (some reason) []
        now) :: .clock now :: h) F s' → Follows t (K (.ok response)) s')
    (herr : ∀ sts s', Here t [] (.refused sts .stale :: h) F s' →
      Follows t (K (.error .staleData)) s') :
    Follows t ((escalate c c reason correlationId decision).run >>= K) s := by
  unfold escalate
  rw [run_bind_bind]
  -- The transition, then the commit: a refusal of the one leaves the other out.
  refine follows_transition c c .escalated (some reason) hs hv (by simp) hrefused
    (fun now s hs => ?_) fun sts s _ _ hs => herr sts s hs
  simp only []
  rw [run_bind_bind]
  refine follows_commit hs (fun db hF _ => hcommit now db hF) fun db s _ _ _ hs => ?_
  exact hk now _ s rfl rfl hs

/-- The case in hand was claimed by this execution. -/
structure InHand (c : RecoveryCase) (attempt : RecoveryAttempt) (caseId : Uuid)
    (F : List Fact) : Prop where
  caseId : c.id = caseId
  executing : c.status = .executing
  caseSeen : .caseSeen c ∈ F
  attemptSeen : .attemptSeen attempt ∈ F

/-- A refused update of the case in hand: its version has moved. -/
theorem Refused.of_inHand {db : Db} {sts dirty : List Stmt} {e : DbError} {after : RecoveryCase}
    (hcase : (phase h).case? = some c)
    (hp : ∀ st ∈ p, st.table ≠ .recoveryCases) (hcheck : Store.checkAll p db = none)
    (hc : Store.checkAll (.updateCase c after :: dirty) (Store.applyAll p db) = some e)
    (hstale : e = .stale → ∀ db' : Db, db.Evolves db' → Store.checkAll dirty db' ≠ some e)
    (hint : e = .integrity → ∃ st ∈ sts, Store.check st db = some .integrity)
    (hopen : ∀ c, .insertCase c ∉ sts) : Refused h db sts e where
  stale := by
    intro c' hc' he r hr
    -- The case in hand is the one the update is about.
    obtain rfl := Option.some.inj (hcase.symm.trans hc')
    exact version_ne_of_checkAll (hstale he) hp hcheck hc hr
  integrity := fun _ _ he => hint he
  opening := fun c hc => absurd hc (hopen c)

/-- An execution may give up: the call failed, or the search found nothing. -/
def MayGiveUp (c : RecoveryCase) (attempt : RecoveryAttempt) (ph : Phase) : Prop :=
  ∃ made, (∃ e, ph = .called c attempt made (.error (.paymentProvider e)) ∧ e.kind ≠ .ambiguous) ∨
    (∃ found, ph = .reconciled c attempt made found ∧ ∀ link, found ≠ .ok (some link))

/-- The case is in hand when an execution gives up. -/
theorem MayGiveUp.case? {ph : Phase} (hg : MayGiveUp c attempt ph) : ph.case? = some c := by
  obtain ⟨made, ⟨e, rfl, -⟩ | ⟨found, rfl, -⟩⟩ := hg <;> rfl

/-- The transaction in which it does so is its last. -/
theorem MayGiveUp.next_committed {ph : Phase} (hg : MayGiveUp c attempt ph) (sts : List Stmt) :
    ph.next (.committed sts) = .idle := by
  obtain ⟨made, ⟨e, rfl, -⟩ | ⟨found, rfl, -⟩⟩ := hg <;> rfl

/-- `_handle_definite_failure`. -/
theorem follows_handleDefiniteFailure {error : PaymentProviderError} {correlationId : String}
    {failureCategory : Option ProviderFailureCategory} {reason : Option String}
    [Between h₀] (hl : Late h₀ caseId h) (hs : Here t [] h F s) (hin : InHand c attempt caseId F)
    (hg : MayGiveUp c attempt (phase h)) (hk : OnFinish t h₀ caseId F K)
    (herr : OnStop t h₀ caseId F K) :
    Follows t ((handleDefiniteFailure c attempt error correlationId failureCategory reason).run
      >>= K) s := by
  unfold handleDefiniteFailure
  -- The time of the failure is read, and goes onto the attempt.
  simp only []
  rw [run_bind_bind]
  refine follows_now hs fun completedAt s hs => ?_
  have hl := hl.clock completedAt
  have hg : MayGiveUp c attempt (phase (.clock completedAt :: h)) := by
    rw [phase_cons, Phase.next_clock]
    exact hg
  have hseen : ∀ db, Facts F db → ∀ b, Store.checkAll (attempt.pendingUpdate b) db = none :=
    fun db hF b => checkAll_pendingUpdate_attempt (Db.AttemptSeen.exists (hF _ hin.attemptSeen))
  simp only []
  rw [run_bind_bind]
  -- the attempt is there, so its update cannot fail
  refine follows_flush_of_checked hs (fun db hF _ => hseen db hF _) fun s hs => ?_
  simp only []
  refine follows_escalate hs (by rw [hin.executing]; rfl) (fun db e hF hcheck hc => ?_)
    (fun now db hF => ?_) (fun now response s hresponse hstatus hs => ?_) fun sts s hs => ?_
  · refine .of_inHand hg.case? (fun st hst => ?_) hcheck hc
      (fun he db' _ => by simp [Store.checkAll]) (fun he => ?_) (by simp)
    · rw [List.nil_append] at hst
      rw [attempt.table_of_mem_pendingUpdate hst]
      simp
    · have hst := Stmt.eq_stale_of_checkAll (by simp [Stmt.Unkeyed]) hc
      rw [he] at hst
      cases hst
  · -- The commit: the case is given up in the phase the call or the search has left.
    obtain ⟨made, hgm⟩ := hg
    refine .gaveUp c attempt made _ _ _ _ _ now hl.toWorks.between.clock ?_ (hF _ hin.caseSeen)
      (hF _ hin.attemptSeen)
    rw [phase_cons, Phase.next_clock]
    exact hgm
  · -- It has escalated the case, and recorded no link.
    have hl := hl.clock now
    let category := failureCategory.getD (errorToFailureCategory error.kind)
    let escalationReason :=
      (truthy reason).getD s!"Provider call failed ({category.value}): {error.message}"
    have hsolely := Solely.giveUp c attempt category error.message escalationReason correlationId
      completedAt now
    have hleaves := Leaves.gaveUp c attempt category error.message escalationReason correlationId
      completedAt now
    have hlinks := (Internal.giveUp c attempt category error.message escalationReason correlationId
      completedAt now).filterMap_linkInsert?
    refine hk response _ s (.of_committed hl.toWorks ?_ (hl.acted.cons _) (hin.caseId ▸ hsolely) ?_
      (by rw [hstatus]; simp) ?_ fun he => ?_) hs
    · rw [phase_cons, Phase.next_clock, hg.next_committed]
    · rw [hstatus, ← hin.caseId]
      exact hleaves
    · rw [hresponse]
      exact hlinks
    · rw [hresponse] at he
      cases he
  · -- The refusal is a stale version: another transaction has moved the case.
    exact herr .staleData [] _ s (.of_refused (e := .stale) hl) hs

/-! ### Recording a link -/

/-- An execution may record `link`: it was the answer of the call, or was found. -/
def MayRecord (c : RecoveryCase) (attempt : RecoveryAttempt) (link : PaymentLinkSnapshot)
    (ph : Phase) : Prop :=
  ∃ made, ph = .called c attempt made (.ok link) ∨
    ph = .reconciled c attempt made (.ok (some link))

/-- The case is in hand when a link is recorded. -/
theorem MayRecord.case? {link : PaymentLinkSnapshot} {ph : Phase}
    (hm : MayRecord c attempt link ph) : ph.case? = some c := by
  obtain ⟨made, rfl | rfl⟩ := hm <;> rfl

/-- The transaction that records it is the last. -/
theorem MayRecord.next_committed {link : PaymentLinkSnapshot} {ph : Phase}
    (hm : MayRecord c attempt link ph) (sts : List Stmt) : ph.next (.committed sts) = .idle := by
  obtain ⟨made, rfl | rfl⟩ := hm <;> rfl

/-- The insert of a link is checked against the table of links alone. -/
theorem check_insertPaymentRequest_congr {db db' : Db} (row : RecoveryPaymentRequest)
    (hl : db'.recoveryPaymentRequests = db.recoveryPaymentRequests) :
    Store.check (Stmt.insertPaymentRequest row) db' =
      Store.check (Stmt.insertPaymentRequest row) db := by
  change Stmt.unlessTaken _ = Stmt.unlessTaken _
  rw [hl]

/-- Recording a link fails only on the version of the case or on a unique value. -/
theorem checkAll_recordFlush {db : Db} {link : PaymentLinkSnapshot} {id : Uuid}
    {completedAt : Time} {e : DbError} (ha : db.AttemptSeen attempt)
    (hc : Store.checkAll (recordFlush c attempt link id completedAt) db = some e) :
    (e = .stale ∧ ∀ r, db.recoveryCases.get? c.id = some r → r.version ≠ c.version) ∨
      (e = .integrity ∧
        Store.check (.insertPaymentRequest (paymentRequestOf id c attempt link)) db =
          some .integrity) := by
  rw [recordFlush, List.cons_append, Store.checkAll, Option.or_eq_some_iff] at hc
  rcases hc with hc | ⟨hok, hc⟩
  · -- The case was moved, or the rest is refused on a database with the case updated.
    refine .inl ⟨Stmt.eq_stale_of_check rfl hc, fun r hr => version_ne_of_check hc hr⟩
  · -- the attempt is there, so what fails is the insert of the link
    have hseen : (Store.apply (Stmt.updateCase c c.counted) db).AttemptSeen attempt :=
      ha.evolves (.apply hok)
    rw [Store.checkAll_append, checkAll_pendingUpdate_attempt hseen.exists, Option.none_or,
      Store.checkAll, Option.or_eq_some_iff] at hc
    rcases hc with hc | ⟨-, hc⟩
    · have hframe : (Store.applyAll (attempt.pendingUpdate (attempt.succeed link completedAt))
          (Store.apply (Stmt.updateCase c c.counted) db)).recoveryPaymentRequests =
          db.recoveryPaymentRequests := by
        rw [Stmt.frame_recoveryPaymentRequests fun st hst => by
          rw [attempt.table_of_mem_pendingUpdate hst]; simp]
        rfl
      rw [check_insertPaymentRequest_congr _ hframe] at hc
      have he : e = .integrity := Stmt.eq_integrity_of_unlessTaken hc
      exact .inr ⟨he, he ▸ hc⟩
    · cases hc

/-- `_record_payment_link_created`. -/
theorem follows_recordPaymentLinkCreated {link : PaymentLinkSnapshot} {correlationId : String}
    [Between h₀] (hl : Late h₀ caseId h) (hs : Here t [] h F s) (hin : InHand c attempt caseId F)
    (hm : MayRecord c attempt link (phase h)) (hk : OnFinish t h₀ caseId F K)
    (herr : OnStop t h₀ caseId F K) :
    Follows t ((recordPaymentLinkCreated c attempt link correlationId).run >>= K) s := by
  unfold recordPaymentLinkCreated
  rw [run_bind_bind]
  refine follows_now hs fun completedAt s hs => ?_
  have hl := hl.clock completedAt
  have hm : MayRecord c attempt link (phase (.clock completedAt :: h)) := by
    rw [phase_cons, Phase.next_clock]
    exact hm
  simp only []
  rw [run_bind_bind]
  refine follows_uuid4 hs fun id s hs => ?_
  simp only []
  rw [run_bind_bind]
  change Follows t ((Service.flush (recordFlush c attempt link id completedAt)).run >>= _) s
  refine follows_flush hs (fun s hs => ?_) (fun db e hF _ hc => ?_) fun e s _ _ hs => ?_
  · -- The flush goes through, and the link is committed with its event.
    simp only []
    rw [run_bind_bind]
    refine follows_recordEvent hs fun t' s hs => ?_
    simp only []
    rw [run_bind_bind]
    have hl := hl.clock t'
    obtain ⟨made, hph⟩ := hm
    have hmade : phase (.clock t' :: .clock completedAt :: h) = .called c attempt made (.ok link) ∨
        phase (.clock t' :: .clock completedAt :: h)
          = .reconciled c attempt made (.ok (some link)) := by
      rw [phase_cons, Phase.next_clock]
      exact hph
    refine follows_commit hs (fun db hF _ => ?_) fun db s _ _ _ hs => ?_
    · exact .recorded c attempt made link id completedAt correlationId t' hl.toWorks.between
        hmade
        (hF _ hin.caseSeen) (hF _ hin.attemptSeen)
    · -- The execution has finished, with the case still executing.
      have hsolely := Solely.record c attempt link id completedAt correlationId t'
      have hleaves := Leaves.recorded c attempt link id completedAt correlationId t' hin.executing
      refine hk _ _ s (.of_committed hl.toWorks ?_ (hl.acted.cons _) (hin.caseId ▸ hsolely)
        ?_ ?_ ?_ fun _ => ?_) hs
      · rw [MayRecord.next_committed ⟨made, hmade⟩]
      · change Leaves _ _ _ c.status
        rw [hin.executing, ← hin.caseId]
        exact hleaves
      · change c.status ≠ _
        rw [hin.executing]
        simp
      · exact ⟨_, filterMap_linkInsert?_recordStmts .., hin.caseId⟩
      · exact ⟨c, attempt, link, id, completedAt, correlationId, t', rfl, hin.caseId, rfl, rfl⟩
  · -- the flush names the one statement that can violate a unique column
    have hcases := checkAll_recordFlush (hF _ hin.attemptSeen) hc
    refine ⟨fun c' hc' he => ?_, fun c' hc' he => ?_, fun c' hc' => ?_⟩
    · obtain rfl := Option.some.inj (hm.case?.symm.trans hc')
      obtain ⟨-, hv⟩ | ⟨hi, -⟩ := hcases
      · exact hv
      · rw [hi] at he; cases he
    · obtain ⟨hi, -⟩ | ⟨-, hi⟩ := hcases
      · rw [hi] at he; cases he
      · exact ⟨_, by simp [recordFlush], hi⟩
    · have hupdate : .insertCase c' ∈ attempt.pendingUpdate (attempt.succeed link completedAt) := by
        simpa [recordFlush] using hc'
      exact absurd hupdate (Stmt.insertCase_notMem (attempt.unkeyed_pendingUpdate _) c')
  · -- The flush is refused, and the link that was made is not recorded.
    exact herr e.raised [] _ s (.of_refused hl) hs

/-! ### The call and its answers -/

/-- `_handle_ambiguous_creation` behind its search. -/
def noteReconciliation (recoveryCase : RecoveryCase) (attempt : RecoveryAttempt)
    (error : PaymentProviderError) (correlationId : String) (link : Option PaymentLinkSnapshot)
    (searchError : Option String) : Service ExecutionResponse := do
  recordEvent (.recoveryAttempt attempt.id)
    (.providerStateReconciliation link.isSome searchError) .system correlationId []
  Service.commit
  match link with
  | some link => recordPaymentLinkCreated recoveryCase attempt link correlationId
  | none =>
    handleDefiniteFailure recoveryCase attempt error correlationId (some .ambiguousResult)
      (some "Provider response was ambiguous and could not be reconciled; manual review required.")

/-- `_handle_ambiguous_creation`. -/
theorem follows_handleAmbiguousCreation {referenceId correlationId : String}
    {error : PaymentProviderError} {made : Option PaymentLinkSnapshot}
    [Between h₀] (hl : Late h₀ caseId h) (hs : Here t [] h F s) (hin : InHand c attempt caseId F)
    (hph : phase h = .called c attempt made (.error (.paymentProvider error)))
    (hamb : error.kind = .ambiguous) (hk : OnFinish t h₀ caseId F K)
    (herr : OnStop t h₀ caseId F K) :
    Follows t ((handleAmbiguousCreation c attempt referenceId error correlationId).run >>= K) s := by
  unfold handleAmbiguousCreation
  rw [run_bind_bind]
  -- The ambiguous answer is noted, and the search made with that event flushed.
  refine follows_recordEvent hs fun t₁ s hs => ?_
  have hl := hl.clock t₁
  have hph : phase (.clock t₁ :: h) = .called c attempt made (.error (.paymentProvider error)) := by
    rw [phase_cons, Phase.next_clock]
    exact hph
  simp only []
  rw [run_bind_bind, reconcile, run_bind_bind]
  refine follows_findPaymentLinkByReference hs ⟨c, attempt, made, error, hph, hamb⟩
    fun found s hspares hs => ?_
  have hsuffix := hl.suffix
  have hl := hl.cons (e := .found referenceId found) (by simp) (Event.in_of_quiet rfl rfl rfl) rfl
  -- whatever was found is noted, and decides between recording and giving up
  have hrest : ∀ (link : Option PaymentLinkSnapshot) (searchError : Option String),
      phase (.found referenceId found :: .clock t₁ :: h) = .searched c attempt made found →
      (∀ l, link = some l → found = .ok (some l)) → (link = none → ∀ l, found ≠ .ok (some l)) →
      Follows t ((noteReconciliation c attempt error correlationId link searchError).run >>= K)
        s := by
    intro link searchError hph hsome hnone
    unfold noteReconciliation
    rw [run_bind_bind]
    refine follows_recordEvent hs fun t₂ s hs => ?_
    have hl := hl.clock t₂
    have hph : phase (.clock t₂ :: .found referenceId found :: .clock t₁ :: h) =
        .searched c attempt made found := by
      rw [phase_cons, Phase.next_clock]
      exact hph
    simp only []
    rw [run_bind_bind]
    refine follows_commit hs (fun db hF _ => ?_) fun db s _ _ _ hs => ?_
    · exact .reconciled c attempt made found error link searchError correlationId t₁ t₂
        hl.toWorks.between hph
    · have hnote : ∀ st ∈ reconcileStmts attempt error link searchError correlationId t₁ t₂,
          st.table = .auditEvents := by
        simp [reconcileStmts, auditStmt, Stmt.table]
      have hsolely : Solely caseId _ := .of_table fun st hst => by rw [hnote st hst]; simp
      -- The note is a transaction of its own: from here on the search is not lost.
      have hl := hl.committed hsolely
        (filterMap_linkInsert?_of_table fun st hst => by rw [hnote st hst]; simp)
      have hph : phase (.committed (reconcileStmts attempt error link searchError correlationId
          t₁ t₂) :: .clock t₂ :: .found referenceId found :: .clock t₁ :: h) =
          .reconciled c attempt made found := by
        rw [phase_cons, hph]
        rfl
      cases link with
      | some link =>
        refine follows_recordPaymentLinkCreated hl hs hin ⟨made, .inr ?_⟩ hk herr
        rw [← hsome link rfl]
        exact hph
      | none =>
        exact follows_handleDefiniteFailure hl hs hin
          ⟨made, .inr ⟨found, hph, hnone rfl⟩⟩ hk herr
  cases found with
  -- The search was answered: with a link, or with none.
  | ok link =>
    refine hrest link none (by rw [phase_cons, hph]; rfl) (fun l hl => by rw [hl]) fun hl l hf => ?_
    rw [hl] at hf
    cases hf
  | error e =>
    cases e with
    -- The search has failed itself: the attempt is given up with its message.
    | paymentProvider e =>
      exact hrest none (some e.message) (by rw [phase_cons, hph]; rfl) (by simp) (by simp)
    -- What is no provider error leaves the service.
    | other e =>
      exact herr e _ _ s (.of_late hl (by rw [phase_cons, hph]; rfl)
        ((hspares e rfl).of_suffix hsuffix)) hs

/-- What an execution keeps from its claim on. -/
structure Claimed (x : Execution) (caseId : Uuid) (F : List Fact) : Prop where
  caseId : x.recoveryCase.id = caseId
  caseSeen : .caseSeen x.recoveryCase ∈ F
  claimedSeen : .caseSeen x.claimed ∈ F
  paymentSeen : .paymentSeen x.payment ∈ F
  paymentId : x.payment.id = x.recoveryCase.paymentId
  approved : x.recoveryCase.status = .approved
  action : x.recoveryCase.recommendedAction = some x.action
  cleared : x.Cleared

/-- What the rule of the call asks to be known. -/
theorem Claimed.known {x : Execution} {db : Db} (hx : Claimed x caseId F) (hF : Facts F db) :
    x.Known db :=
  ⟨hF _ hx.caseSeen, hF _ hx.paymentSeen, hx.paymentId, hx.approved, hx.action⟩

/-- A claim stays one when more is known. -/
theorem Claimed.mono {x : Execution} {G : List Fact} (hx : Claimed x caseId F)
    (hF : ∀ f ∈ F, f ∈ G) : Claimed x caseId G :=
  { hx with
    caseSeen := hF _ hx.caseSeen
    claimedSeen := hF _ hx.claimedSeen
    paymentSeen := hF _ hx.paymentSeen }

/-- A noted attempt is there. -/
theorem attemptSeen_of_attemptStmts {db : Db} {payment : Payment} {correlationId : String}
    {now : Time} (hc : Store.checkAll (attemptStmts attempt payment correlationId now) db = none) :
    (Store.applyAll (attemptStmts attempt payment correlationId now) db).AttemptSeen attempt := by
  -- The insert has passed its check, so the id was free.
  have hfree : db.recoveryAttempts.get? attempt.id = none := by
    have htaken := Stmt.eq_false_of_unlessTaken (Store.checkAll_cons_eq_none.mp hc).1
    rw [Bool.or_eq_false_iff, Option.isSome_eq_false_iff, Option.isNone_iff_eq_none] at htaken
    exact htaken.1
  refine ⟨attempt, ?_, .refl attempt⟩
  change Table.get? (db.recoveryAttempts ++ [attempt]) attempt.id = some attempt
  rw [Table.get?_append, hfree, Option.none_or, Table.get?_singleton]
  exact if_pos rfl

/-- The call, and what follows from the answer. -/
theorem follows_callProvider {x : Execution} {expiryHours : Int} {reference : String}
    [Between h₀] (hwithin : Within h₀) (hl : Late h₀ caseId h) (hs : Here t [] h F s)
    (hx : Claimed x caseId F) (hph : phase h = .attempted x.claimed attempt) (hatt : .attemptSeen attempt ∈ F)
    (hcase : attempt.recoveryCaseId = x.recoveryCase.id)
    (href : attempt.idempotencyKey = some reference)
    (hreads : .committed x.claimStmts :: x.reads <:+: h) (hk : OnFinish t h₀ caseId F K)
    (herr : OnStop t h₀ caseId F K) :
    Follows t ((callProvider x.claimed x.payment attempt x.payment.amount expiryHours reference
      x.correlationId).run >>= K) s := by
  unfold callProvider
  simp only [ne_eq, not_true_eq_false, if_false]
  rw [run_bind_bind]
  -- The expiry is counted from here.
  refine follows_now hs fun now s hs => ?_
  have hl := hl.clock now
  have hph : phase (.clock now :: h) = .attempted x.claimed attempt := by
    rw [phase_cons, Phase.next_clock]
    exact hph
  have hreads : .committed x.claimStmts :: x.reads <:+: .clock now :: h :=
    hreads.trans (List.infix_cons List.infix_rfl)
  have hin : InHand x.claimed attempt caseId F := ⟨hx.caseId, rfl, hx.claimedSeen, hatt⟩
  simp only []
  rw [run_bind_bind, expiry, run_ite_bind]
  split_ifs with hlate
  · -- It is beyond `datetime.max`: nothing was asked of the provider.
    exact herr _ [] _ s (.of_attempted hl hph) hs
  refine follows_pure ?_
  simp only []
  rw [run_bind_bind]
  refine follows_createPaymentLink hs (fun db hF => ?_) fun made answer s htruly hs => ?_
  · -- The claim and the attempt are committed, and the request is for the payment that was read.
    exact ⟨x, attempt, rfl, hph, hx.known hF, hx.cleared, hreads, hcase, href, rfl, rfl,
      hwithin.of_works hl.toWorks⟩
  · let request := paymentLinkRequest x.claimed x.payment reference
      (now + expiryHours * microsecondsPerHour)
    have hl := hl.cons (e := .created x.claimed.id request made answer) (by simp)
      (Event.in_of_quiet rfl rfl rfl) rfl
    simp only []
    cases answer with
    -- A link was made.
    | ok link =>
      exact follows_recordPaymentLinkCreated hl hs hin
        ⟨made, .inl (by rw [phase_cons, hph]; rfl)⟩ hk herr
    | error e =>
      cases e with
      | paymentProvider error =>
        have hph : phase (.created x.claimed.id request made (.error (.paymentProvider error)) ::
            .clock now :: h) = .called x.claimed attempt made (.error (.paymentProvider error)) := by
          rw [phase_cons, hph]
          rfl
        simp only []
        rw [run_ite_bind]
        split_ifs with hamb
        · -- The answer is ambiguous: there may be a link.
          exact follows_handleAmbiguousCreation hl hs hin hph hamb hk herr
        · -- The call has failed for certain.
          exact follows_handleDefiniteFailure hl hs hin
            ⟨made, .inl ⟨error, hph, hamb⟩⟩ hk herr
      -- The provider raises what no service catches.
      | other e =>
        exact herr e [] _ s (.of_late hl (by rw [phase_cons, hph]; rfl) fun _ _ _ => rfl) hs

/-- `_create_payment_link`. -/
theorem follows_createPaymentLinkService {x : Execution} [Between h₀] (hwithin : Within h₀)
    (hl : Late h₀ caseId h) (hs : Here t [] h F s) (hx : Claimed x caseId F)
    (hph : phase h = .claimed x.claimed) (hreads : .committed x.claimStmts :: x.reads <:+: h)
    (hk : OnFinish t h₀ caseId F K)
    (herr : OnStop t h₀ caseId F K) :
    Follows t ((createPaymentLink x.claimed x.payment x.correlationId).run >>= K) s := by
  -- The reference is drawn before the attempt that carries it.
  unfold createPaymentLink
  rw [run_bind_bind]
  refine follows_getSettings hs fun settings s hs => ?_
  simp only []
  rw [run_bind_bind]
  refine follows_uuid4 hs fun reference s hs => ?_
  simp only []
  rw [run_bind_bind]
  refine follows_now hs fun startedAt s hs => ?_
  simp only []
  rw [run_bind_bind]
  refine follows_uuid4 hs fun id s hs => ?_
  simp only []
  rw [run_bind_bind]
  refine follows_now hs fun createdAt s hs => ?_
  let attempt := startedAttempt x.claimed x.payment x.correlationId (uuidText reference) id
    startedAt createdAt
  simp only []
  rw [run_bind_bind]
  change Follows t ((Service.flush [.insertAttempt attempt]).run >>= _) s
  have hl := ((hl.configured settings).clock startedAt).clock createdAt
  refine follows_flush hs (fun s hs => ?_) (fun db e _ _ hc => ?_) fun e s _ _ hs => ?_
  · simp only []
    rw [run_bind_bind]
    refine follows_recordEvent hs fun t₁ s hs => ?_
    simp only []
    rw [run_bind_bind]
    have hph : phase (.clock t₁ :: .clock createdAt :: .clock startedAt :: .configured settings ::
        h) = .claimed x.claimed := by
      simp only [phase_cons, Phase.next_clock, Phase.next_configured]
      exact hph
    refine follows_commit hs (fun db hF _ => ?_) fun db s _ hc hdb hs => ?_
    · exact .attempted x.claimed x.payment x.correlationId (uuidText reference) id startedAt createdAt
        t₁ (hl.clock t₁).toWorks.between hph (hF _ hx.paymentSeen)
        hx.paymentId
    · -- The attempt is committed before the call, and stays whatever comes of it.
      have hs := hs.learn (f := .attemptSeen attempt) (hdb ▸ attemptSeen_of_attemptStmts hc)
      have hFG : ∀ f ∈ F, f ∈ Fact.attemptSeen attempt :: F := fun f hf =>
        List.mem_cons_of_mem _ hf
      have hnote : ∀ st ∈ attemptStmts attempt x.payment x.correlationId t₁,
          st.table = .recoveryAttempts ∨ st.table = .auditEvents := by
        simp [attemptStmts, auditStmt, Stmt.table]
      have hsolely : Solely caseId _ :=
        .of_table fun st hst => by rcases hnote st hst with h | h <;> simp [h]
      have hlate := (hl.clock t₁).committed hsolely
        (filterMap_linkInsert?_of_table fun st hst => by rcases hnote st hst with h | h <;> simp [h])
      refine follows_callProvider hwithin hlate hs (hx.mono hFG) ?_ List.mem_cons_self rfl rfl ?_
        (fun response h s hf hs => hk response h s hf (hs.forget hFG))
        (fun e p h s hf hs => herr e p h s hf (hs.forget hFG))
      · rw [phase_cons, hph]
        rfl
      · exact hreads.trans ((List.suffix_append [_, _, _, _, _] h).isInfix)
  · -- an insert is refused because of a unique value only
    rw [Store.checkAll, Store.checkAll, Option.or_none] at hc
    have hint : e = .integrity := Stmt.eq_integrity_of_unlessTaken hc
    refine ⟨fun _ _ he => ?_, fun _ _ he => ⟨_, List.mem_singleton_self _, ?_⟩, by simp⟩
    · rw [hint] at he
      cases he
    · rw [hint] at hc
      exact hc
  · exact herr e.raised [] _ s (.of_refused hl) hs

/-! ### From the read to the claim -/

/-- What an execution has loaded was committed. -/
theorem Db.caseForExecution_eq_some {db : Db} {ranking : List Uuid} {caseId : Uuid}
    {loaded : CaseForExecution} (hq : db.caseForExecution ranking caseId = some loaded) :
    db.recoveryCases.get? caseId = some loaded.recoveryCase ∧
      db.payments.get? loaded.recoveryCase.paymentId = some loaded.payment := by
  simp only [Db.caseForExecution, Option.bind_eq_bind, Option.bind_eq_some_iff, Option.pure_def,
    Option.some.injEq] at hq
  obtain ⟨c, hc, payment, hpay, rfl⟩ := hq
  exact ⟨hc, hpay⟩

/-- The update of a row by one who has read it leaves the object of the session. -/
theorem RecoveryCase.write_self (c : RecoveryCase) (target : RecoveryCaseStatus) :
    c.write { c with status := target } c = c.moved c target := by
  simp [RecoveryCase.write, RecoveryCase.moved]

namespace Execution

variable (x : Execution)

/-- The claim of an approved case is recognised as one. -/
theorem claimOf_claimStmts (hx : x.recoveryCase.status = .approved) :
    claimOf x.claimStmts = some x.claimed := by
  have hupdates : x.claimStmts.filterMap Stmt.caseUpdate? =
      [(x.recoveryCase, { x.recoveryCase with status := .executing })] := rfl
  -- Of its statements one is an update, from APPROVED to EXECUTING.
  unfold claimOf
  rw [hupdates]
  exact if_pos ⟨hx, rfl⟩

/-- A claim withheld in the same transaction is none. -/
theorem claimOf_withholdStmts (reason : String) (now : Time) :
    claimOf (x.withholdStmts reason now) = none := by
  refine claimOf_eq_none_of_mem x.claimed { x.claimed with status := .escalated } ?_ (by simp)
  simp [withholdStmts, transitionStmts]

/-- A claimed case is there as claimed. -/
theorem caseSeen_claimed {db : Db} (hx : db.CaseSeen x.recoveryCase)
    (hc : Store.checkAll x.claimStmts db = none) :
    (Store.applyAll x.claimStmts db).CaseSeen x.claimed := by
  -- two audit events, then the update
  obtain ⟨-, hc⟩ := Store.checkAll_cons_eq_none.mp hc
  obtain ⟨-, hc⟩ := Store.checkAll_cons_eq_none.mp hc
  have hst : Stmt.check (.updateCase x.recoveryCase
      { x.recoveryCase with status := .executing }) db = none :=
    (Store.checkAll_cons_eq_none.mp hc).1
  -- The update was matched, so the row was still the one read.
  have hrow := hx.of_check hst
  refine ⟨x.claimed, ?_, .refl _⟩
  change Table.get? (Table.update db.recoveryCases x.recoveryCase.id _) x.recoveryCase.id = _
  rw [Table.get?_update_self (RecoveryCase.keepsKey_write _ _), hrow, Option.map_some,
    RecoveryCase.write_self]
  rfl

end Execution

/-- Before its first transaction, an execution may be stopped by an error that says
that its case is lost. -/
theorem Stopped.of_proceeds {e : Raised} (hr : Proceeds (some caseId) h₀ h)
    (hc : commits h = commits h₀) (hclean : Spares h₀ p e)
    (hlost : e = .staleData ∨ Lost h caseId (.error e)) : Stopped h₀ caseId e p h where
  toGrows := hr.toGrows
  mayEnd := by rw [hr.idle]; trivial
  idle := fun _ => hr.idle
  clean := hclean
  lost := .inr ⟨hc, hlost⟩
  adds := hr.works.adds
  links := hr.works.links

/-- `_recheck_policy`. -/
theorem follows_recheckPolicy {payment : Payment} {K : Except Raised PolicyDecision → Prog sig Outcome}
    (hs : Here t p h F s)
    (hk : ∀ settings now action s', c.recommendedAction = some action →
      Here t p (.clock now :: .configured settings :: h) F s' →
      Follows t (K (.ok (evaluatePolicy (recheckPolicyInput c payment action now)
        (getPolicyConfig settings)))) s')
    (herr : ∀ settings now m s', c.recommendedAction = none →
      Here t p (.clock now :: .configured settings :: h) F s' →
      Follows t (K (.error (.valueError m))) s') :
    Follows t ((recheckPolicy c payment).run >>= K) s := by
  unfold recheckPolicy readPolicyConfig
  rw [run_bind_bind, run_bind_bind]
  refine follows_getSettings hs fun settings s hs => ?_
  refine follows_pure ?_
  simp only []
  rw [run_bind_bind]
  refine follows_now hs fun now s hs => ?_
  simp only []
  rw [run_bind_bind, recommendedActionOf]
  -- An approved case without an action is a value error of the enum.
  cases hact : c.recommendedAction with
  | none => exact herr settings now _ s hact hs
  | some action => exact hk settings now action s hact hs

/-- The guard turns a stale flush into a domain error, with nothing left flushed. -/
theorem OnStop.of_guard
    (herr : ∀ e p h' s, e ≠ .staleData → Stopped h₀ caseId e p h' → Here t p h' F s →
      Follows t (K (.error e)) s) : OnStop t h₀ caseId F (guarded K) := by
  intro e p h' s hst hs
  cases e with
  -- Behind the guard it is a concurrent modification, which says that the case was lost.
  | staleData =>
    refine follows_guarded_stale hs fun m s hs => herr _ [] h' s (by simp) ?_ hs
    have hidle := hst.idle (.inl rfl)
    exact
      { toGrows := hst.toGrows
        mayEnd := hst.mayEnd
        idle := fun _ => hidle
        clean := fun _ _ _ => rfl
        lost := hst.lost.imp_right fun hc => ⟨hc.1, .inr (.inr (.inl ⟨m, rfl⟩))⟩
        adds := hst.adds
        links := hst.links }
  | _ => exact herr _ p h' s (by simp) hst hs

/-- An execution of `caseId` has re-checked the policy, under the facts `F`. -/
structure Rechecked (x : Execution) (caseId : Uuid) (F : List Fact) : Prop where
  caseId : x.recoveryCase.id = caseId
  caseSeen : .caseSeen x.recoveryCase ∈ F
  paymentSeen : .paymentSeen x.payment ∈ F
  paymentId : x.payment.id = x.recoveryCase.paymentId
  approved : x.recoveryCase.status = .approved
  action : x.recoveryCase.recommendedAction = some x.action

/-- What the rule of the claim asks to be known. -/
theorem Rechecked.known {x : Execution} {db : Db} (hx : Rechecked x caseId F) (hF : Facts F db) :
    x.Known db :=
  ⟨hF _ hx.caseSeen, hF _ hx.paymentSeen, hx.paymentId, hx.approved, hx.action⟩

/-- With its claim in the session, the case is claimed. -/
theorem Rechecked.claimed {x : Execution} (hx : Rechecked x caseId F) (hcleared : x.Cleared) :
    Claimed x caseId (.caseSeen x.claimed :: F) where
  caseId := hx.caseId
  caseSeen := List.mem_cons_of_mem _ hx.caseSeen
  claimedSeen := List.mem_cons_self
  paymentSeen := List.mem_cons_of_mem _ hx.paymentSeen
  paymentId := hx.paymentId
  approved := hx.approved
  action := hx.action
  cleared := hcleared

/-- A withheld execution is a transaction of its own. -/
theorem follows_withhold {x : Execution} {reason : String} {decision : Option PolicyDecision}
    [Between h₀] (hr : Proceeds (some caseId) h₀ h) (hc : commits h = commits h₀)
    (hs : Here t x.claimStmts h F s) (hx : Rechecked x caseId F) (hnot : ¬ x.Cleared)
    (hk : OnFinish t h₀ caseId F K) (herr : OnStop t h₀ caseId F K) :
    Follows t ((escalate x.claimed x.claimed reason x.correlationId decision).run >>= K) s := by
  refine follows_escalate hs rfl (fun db e _ _ _ => .of_idle hr.idle (by simp))
    (fun now db hF => ?_) (fun now response s hresponse hstatus hs => ?_) fun sts s hs => ?_
  · -- The claim and the escalation are one transaction.
    exact .withheld x reason now (hr.clock now).toResumes.between (hr.clock now).idle (hx.known hF)
      hnot
  · have hsolely : Solely caseId (x.withholdStmts reason now) :=
      hx.caseId ▸ Solely.withhold x reason now
    refine hk response _ s (.of_committed (hr.clock now).works ?_ ?_ hsolely ?_
      (by rw [hstatus]; simp) ?_ fun he => ?_) hs
    · -- It claims nothing in the end, so nothing is in hand.
      exact ((hr.clock now).toResumes.committed (x.claimOf_withholdStmts reason now)).idle
    · refine ⟨_, List.mem_cons_self, x.recoveryCase, { x.recoveryCase with status := .executing },
        ?_, hx.caseId⟩
      simp [Execution.withholdStmts, Execution.claimStmts, transitionStmts]
    · rw [hstatus, ← hx.caseId]
      exact Leaves.withheld x reason now
    · rw [hresponse]
      exact (Internal.withhold x reason now).filterMap_linkInsert?
    · rw [hresponse] at he
      cases he
  · exact herr .staleData [] _ s (.of_proceeds (hr.refused sts .stale) hc (by simp [Spares]) (.inl rfl)) hs

/-- A cleared execution commits its claim, and goes on with the link. -/
theorem follows_claim {x : Execution} [Between h₀] (hwithin : Within h₀)
    (hr : Proceeds (some caseId) h₀ h) (hs : Here t x.claimStmts h F s) (hx : Rechecked x caseId F)
    (hcleared : x.Cleared) (hreads : x.reads <+: h)
    (hk : OnFinish t h₀ caseId F K) (herr : OnStop t h₀ caseId F K) :
    Follows t ((Service.commit >>= fun _ =>
      createPaymentLink x.claimed x.payment x.correlationId).run >>= K) s := by
  -- The first commit: from here on the case belongs to this execution.
  rw [run_bind_bind]
  refine follows_commit hs (fun db hF _ => .claimed x hr.toResumes.between hr.idle (hx.known hF)
    hcleared hreads) fun db s hF hc hdb hs => ?_
  have hs := hs.learn (f := .caseSeen x.claimed)
    (hdb ▸ x.caseSeen_claimed (hF (.caseSeen x.recoveryCase) hx.caseSeen) hc)
  have hsolely : Solely caseId x.claimStmts := hx.caseId ▸ Solely.claim x
  have hl : Late h₀ caseId (.committed x.claimStmts :: h) :=
    { toWorks := hr.works.cons (by simp) ⟨rfl, hsolely.cases, rfl⟩
        (Internal.claim x).filterMap_linkInsert?
      acted := ⟨_, List.mem_cons_self, x.recoveryCase,
        { x.recoveryCase with status := .executing },
        by simp [Execution.claimStmts, transitionStmts], hx.caseId⟩ }
  have hmono : ∀ f ∈ F, f ∈ Fact.caseSeen x.claimed :: F := fun f hf => List.mem_cons_of_mem _ hf
  -- The rest knows the claimed row too.
  refine follows_createPaymentLinkService hwithin hl hs (hx.claimed hcleared) ?_ ?_
    (fun response h' s hf hs => hk response h' s hf (hs.forget hmono))
    fun e p h' s hst hs => herr e p h' s hst (hs.forget hmono)
  · rw [phase_cons, hr.idle]
    simp only [Phase.next, x.claimOf_claimStmts hx.approved]
  · obtain ⟨l, hl⟩ := hreads
    rw [← hl]
    exact (List.prefix_append (_ :: x.reads) l).isInfix

/-- **The execution service keeps the protocol.** -/
theorem follows_executeRecoveryCase {correlationId : String} [NotDelivery h] (hidle : phase h = .idle)
    (hwithin : Within h) (hs : Here t [] h F s)
    (hk : ∀ loaded, OnFinish t (.selected (.caseForExecution caseId) loaded :: h) caseId F K)
    (herr : ∀ loaded e p h' s, e ≠ .staleData →
      Stopped (.selected (.caseForExecution caseId) loaded :: h) caseId e p h' →
      Here t p h' F s → Follows t (K (.error e)) s) :
    Follows t ((executeRecoveryCase caseId correlationId).run >>= K) s := by
  unfold executeRecoveryCase executeRecoveryCaseBody
  rw [run_guard_bind, run_bind_bind]
  refine follows_select hs (fun _ _ => rfl) fun ids s hs => ?_
  -- the step begins with the select; what it leaves is counted from there
  have herr : OnStop t _ caseId F (guarded K) :=
    .of_guard (herr (Query.eval s.db ids (.caseForExecution caseId)))
  have hk : OnFinish t _ caseId F (guarded K) := hk (Query.eval s.db ids (.caseForExecution caseId))
  have hidle := ((Resumes.refl hidle).selected (.caseForExecution caseId)
    (Query.eval s.db ids (.caseForExecution caseId)) rfl).idle
  have hnot : Between (.selected (.caseForExecution caseId)
      (Query.eval s.db ids (.caseForExecution caseId)) :: h) :=
    { toNotDelivery := ((Grows.refl h).cons (by simp)).notDelivery
      closed := diagnosing_cons_of_concludes rfl rfl }
  have hwithin := hwithin.selected (.caseForExecution caseId)
    (Query.eval s.db ids (.caseForExecution caseId))
  cases hq : Query.eval s.db ids (.caseForExecution caseId) with
  | none =>
    -- There is no such case.
    rw [hq] at hs hk herr hidle
    have hr : Proceeds (some caseId) _ _ := .refl hidle
    simp only []
    exact follows_raise (herr _ [] _ s (.of_proceeds hr rfl (fun _ _ _ => rfl)
      (.inr (.inr (.inr (.inl List.mem_cons_self))))) hs)
  | some loaded =>
    rw [hq] at hs hk herr hidle hnot hwithin
    have hr : Proceeds (some caseId) _ _ := .refl hidle
    obtain ⟨hcase, hpay⟩ := Db.caseForExecution_eq_some hq
    have hid : loaded.recoveryCase.id = caseId := Table.key_of_get? hcase
    have hpid : loaded.payment.id = loaded.recoveryCase.paymentId := Table.key_of_get? hpay
    have hs := (hs.learn (f := .caseSeen loaded.recoveryCase) (.of_get? hcase)).learn
      (f := .paymentSeen loaded.payment) (.of_get? hpay)
    let G : List Fact := .paymentSeen loaded.payment :: .caseSeen loaded.recoveryCase :: F
    have hFG : ∀ f ∈ F, f ∈ G := fun f hf =>
      List.mem_cons_of_mem _ (List.mem_cons_of_mem _ hf)
    have herr : OnStop t _ caseId G (guarded K) := fun e p h' s hst hs =>
      herr e p h' s hst (hs.forget hFG)
    have hk : OnFinish t _ caseId G (guarded K) := fun response h' s hf hs =>
      hk response h' s hf (hs.forget hFG)
    simp only []
    rw [run_bind_bind]
    -- only an approved case may be executed
    by_cases hv : canTransition loaded.recoveryCase.status .executing
    case neg =>
      -- The guard of the service: any other status is an illegal transition.
      simp only [validateTransition, hv, Bool.false_eq_true, if_false]
      exact follows_raise (herr _ [] _ s (.of_proceeds hr rfl (fun _ _ _ => rfl)
        (.inr (.inl ⟨_, rfl⟩))) hs)
    have happ : loaded.recoveryCase.status = .approved := canTransition_executing_iff.mp hv
    simp only [validateTransition, hv, if_true]
    refine follows_pure ?_
    simp only []
    rw [run_bind_bind]
    refine follows_recordEvent hs fun t₁ s hs => ?_
    have hr := hr.clock t₁
    simp only []
    rw [run_bind_bind]
    refine follows_recheckPolicy hs (fun settings now action s hact hs => ?_)
      fun settings now m s hact hs => ?_
    case refine_2 =>
      -- The case has no action, and the re-check raises.
      have hread : .selected (.caseForExecution caseId) (some loaded) ∈ .clock now ::
          .configured settings :: .clock t₁ ::
          .selected (.caseForExecution caseId) (some loaded) :: h := by simp
      exact herr _ _ _ s (.of_proceeds ((hr.configured settings).clock now) rfl (by simp [Spares])
        (.inr (.inr (.inr (.inr ⟨loaded, hread, happ, hact⟩))))) hs
    have hr := (hr.configured settings).clock now
    simp only []
    rw [run_bind_bind]
    refine follows_recordEvent hs fun t₂ s hs => ?_
    have hr := hr.clock t₂
    simp only []
    rw [run_bind_bind]
    -- The claim is flushed before the decision is looked at.
    refine follows_transition loaded.recoveryCase loaded.recoveryCase .executing none hs hv (by simp)
      (fun db e _ _ _ => .of_idle hr.idle (by simp)) (fun t₃ s hs => ?_)
      fun sts s _ _ hs => herr .staleData [] _ s (.of_proceeds (hr.refused sts .stale) rfl (by simp [Spares])
        (.inl rfl)) hs
    have hr := hr.clock t₃
    let x : Execution :=
      { recoveryCase := loaded.recoveryCase, payment := loaded.payment
        attempts := loaded.attempts, settings, now, action, correlationId, t₁, t₂, t₃ }
    have hx : Rechecked x caseId G := ⟨hid, by simp [G, x], by simp [G, x], hpid, happ, hact⟩
    have hwithheld : ∀ reason decision, ¬ x.Cleared →
        Follows t ((escalate x.claimed x.claimed reason correlationId decision).run >>= guarded K)
          s := fun reason decision hnot => follows_withhold hr rfl hs hx hnot hk herr
    simp only []
    rw [run_ite_bind]
    split_ifs with hblock
    · -- The policy blocks.
      refine hwithheld _ _ fun hc => ?_
      have hallow := hc.allowed
      rw [show x.decision.decision = .block from hblock] at hallow
      cases hallow
    · -- It allows; the action may still be none that is executed.
      have hallow : x.decision.decision = .allow := by
        cases hd : x.decision.decision with
        | allow => rfl
        | block => exact absurd hd hblock
      have haction : recommendedActionOf (loaded.recoveryCase.moved loaded.recoveryCase .executing)
          = pure action := by
        rw [recommendedActionOf, RecoveryCase.moved, hact]
      rw [run_bind_bind, haction]
      refine follows_pure ?_
      simp only []
      rw [run_ite_bind]
      by_cases hexec : action ∈ EXECUTABLE_ACTIONS
      case neg =>
        -- It is not executable.
        rw [if_pos hexec]
        exact hwithheld _ _ fun hc => hexec hc.executable
      case pos =>
        -- It is: what the re-check has read is the newest part of the record.
        rw [if_neg (not_not_intro hexec)]
        have hreads : x.reads <+: .clock t₃ :: .clock t₂ :: .clock now :: .configured settings ::
            .clock t₁ :: .selected (.caseForExecution caseId) (some loaded) :: h := by
          obtain rfl := hid
          exact List.prefix_append _ h
        exact follows_claim (x := x) hwithin hr hs hx ⟨hallow, hexec⟩ hreads hk herr

end RecoverAI
