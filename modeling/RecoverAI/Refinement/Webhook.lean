import RecoverAI.Refinement.Execution

/-!
# The webhook service keeps the protocol

A delivery flushes its claim, then the change of the link, then the change of the
case. Only the first and the last flush can be refused: the claim because the key is
taken or the event has no type, the case because its version has moved.
-/

namespace RecoverAI

open Interleave

variable {t : Tid} {p : List Stmt} {h h₀ : List Event} {F : List Fact} {s : State}
  {event : ParsedWebhookEvent} {correlationId : String}

/-- All links an operation has found satisfy `P`. -/
def LinksRead (h : List Event) (P : RecoveryPaymentRequest → Prop) : Prop :=
  ∀ paymentLinkId link,
    .selected (.paymentRequestByProviderReference paymentLinkId) (some link) ∈ h → P link

/-- An event that finds no link. -/
def Event.FindsNoLink (e : Event) : Prop :=
  ∀ paymentLinkId link,
    e ≠ .selected (.paymentRequestByProviderReference paymentLinkId) (some link)

/-- One more event that finds none. -/
theorem LinksRead.cons {P : RecoveryPaymentRequest → Prop} {e : Event} (hl : LinksRead h P)
    (he : e.FindsNoLink) : LinksRead (e :: h) P := by
  intro paymentLinkId link hmem
  -- The newest event finds no link, so it was found before.
  rcases List.mem_cons.mp hmem with hmem | hmem
  · exact absurd hmem.symm (he paymentLinkId link)
  · exact hl paymentLinkId link hmem

/-- The first link an operation finds. -/
theorem LinksRead.found {paymentLinkId : String} {link : RecoveryPaymentRequest}
    (hl : LinksRead h fun _ => False) :
    LinksRead (.selected (.paymentRequestByProviderReference paymentLinkId) (some link) :: h)
      (· = link) := by
  intro paymentLinkId' link' hmem
  rcases List.mem_cons.mp hmem with hmem | hmem
  · cases hmem
    rfl
  · exact (hl paymentLinkId' link' hmem).elim

/-- A weaker condition on the links. -/
theorem LinksRead.imp {P Q : RecoveryPaymentRequest → Prop} (hl : LinksRead h P)
    (hPQ : ∀ link, P link → Q link) : LinksRead h Q := fun paymentLinkId link hmem =>
  hPQ link (hl paymentLinkId link hmem)

/-- What a delivery owes for a link it has found: the case of the link was not there,
was not executing, or has moved since. -/
def Settled (h : List Event) (F : List Fact) (link : RecoveryPaymentRequest) : Prop :=
  ∃ reference found, [.selected (.caseForExecution link.recoveryCaseId) found,
      .selected (.paymentRequestByProviderReference reference) (some link)] <:+: h ∧
    ∀ loaded, found = some loaded → loaded.recoveryCase.status = .executing →
      .outdated loaded.recoveryCase ∈ F

/-- A delivery has settled every link it has found. -/
abbrev Handled (h : List Event) (F : List Fact) : Prop := LinksRead h (Settled h F)

/-- Settled links stay settled when the record grows. -/
theorem Handled.cons {e : Event} (hh : Handled h F) (he : e.FindsNoLink) : Handled (e :: h) F :=
  (LinksRead.cons hh he).imp fun _ ⟨reference, found, hread, hout⟩ =>
    ⟨reference, found, hread.trans (List.suffix_cons e h).isInfix, hout⟩

/-- A delivery has committed one transaction, its claim included. -/
def Effected (event : ParsedWebhookEvent) (h₀ h : List Event) : Prop :=
  ∃ sts, commits h = sts :: commits h₀ ∧ Delivery.claimStmt event ∈ sts

/-- The continuation after a delivery that committed. -/
abbrev OnEffected (t : Tid) (h₀ : List Event) (event : ParsedWebhookEvent)
    (K : Except Raised WebhookStatus → Prog sig Outcome) : Prop :=
  ∀ status h G s, Resumes h₀ h → Effected event h₀ h → Handled h G → .claimed event.dedupKey ∈ G →
    status ≠ .duplicate → Here t [] h G s → Follows t (K (.ok status)) s

/-- The continuation after a delivery that came too late. -/
abbrev OnLate (t : Tid) (h₀ : List Event) (K : Except Raised WebhookStatus → Prog sig Outcome) :
    Prop :=
  ∀ h G s, Resumes h₀ h → commits h = commits h₀ → Handled h G → Here t [] h G s →
    Follows t (K (.error .staleData)) s

/-- The strings that name a status a delivery acts on. -/
theorem ofValue?_of_mem_relevantLinkStatuses {v : String} (hv : v ∈ relevantLinkStatuses) :
    ∃ st, RecoveryPaymentRequestStatus.ofValue? v = some st ∧ st.value = v := by
  simp only [relevantLinkStatuses, List.mem_cons, List.not_mem_nil, or_false] at hv
  rcases hv with rfl | rfl | rfl
  -- PAID, EXPIRED and CANCELLED.
  all_goals exact ⟨_, RecoveryPaymentRequestStatus.ofValue?_value _, rfl⟩

/-- A loaded attempt is there. -/
theorem Db.attemptExists_of_mem_loaded {db : Db} {ranking : List Uuid} {caseId : Uuid}
    {loaded : CaseForExecution} (hq : db.caseForExecution ranking caseId = some loaded)
    {a : RecoveryAttempt} (ha : a ∈ loaded.attempts) : db.AttemptExists a.id := by
  simp only [Db.caseForExecution, Option.bind_eq_bind, Option.bind_eq_some_iff, Option.pure_def,
    Option.some.injEq] at hq
  obtain ⟨c, -, payment, -, rfl⟩ := hq
  rw [Db.attemptsOf, orderedBy, List.mem_insertionSort] at ha
  -- The attempts of a case are rows of their table.
  exact Table.get?_isSome_of_mem (List.mem_of_mem_filter ha)

/-- A claimed key is in the ledger. -/
theorem Db.claimed_of_claimStmt {db : Db} {sts : List Stmt}
    (hc : Store.checkAll (Delivery.claimStmt event :: sts) db = none) :
    (Store.applyAll (Delivery.claimStmt event :: sts) db).Claimed event.dedupKey := by
  obtain ⟨-, hsts⟩ := Store.checkAll_cons_eq_none.mp hc
  have hfirst : (Store.apply (Delivery.claimStmt event) db).Claimed event.dedupKey := by
    change Stmt.taken (db.processedWebhookEvents ++ [_]) _ _ = true
    simp [Stmt.taken]
  -- The ledger only grows, so the key is still in it after the rest.
  exact hfirst.evolves (.applyAll hsts)

/-! ### Settling the case -/

/-- A delivery about to change the case: what it has read, and what it knows. -/
structure AtCase (d : Delivery) (h : List Event) (F : List Fact) : Prop where
  started : .started (.webhook d.event d.correlationId) ∈ h
  linkId : d.event.paymentLinkId = some d.paymentLinkId
  reference : d.link.providerReference = d.paymentLinkId
  status : d.event.paymentLinkStatus = some d.status.value
  relevant : d.status.value ∈ relevantLinkStatuses
  linkSeen : .linkSeen d.link ∈ F
  caseSeen : .caseSeen d.loaded.recoveryCase ∈ F
  caseId : d.loaded.recoveryCase.id = d.link.recoveryCaseId
  reads : d.reads <:+: h
  links : LinksRead h (· = d.link)

/-- What the rules of a delivery ask to be known. -/
theorem AtCase.known {d : Delivery} {db : Db} (hd : AtCase d h F) (hF : Facts F db) :
    d.Known h db :=
  { hd with linkSeen := hF _ hd.linkSeen, caseSeen := hF _ hd.caseSeen }

/-- One more event that finds no link. -/
theorem AtCase.cons {d : Delivery} {e : Event} (hd : AtCase d h F) (he : e.FindsNoLink) :
    AtCase d (e :: h) F :=
  { hd with
    started := List.mem_cons_of_mem _ hd.started
    reads := hd.reads.trans (List.suffix_cons e h).isInfix
    links := hd.links.cons he }

/-- Once the case has moved, the delivery has settled its link. -/
theorem AtCase.handled {d : Delivery} (hd : AtCase d h F) {G : List Fact}
    (hG : d.loaded.recoveryCase.status = .executing → .outdated d.loaded.recoveryCase ∈ G) :
    Handled h G := by
  refine hd.links.imp fun link hl => ⟨d.paymentLinkId, some d.loaded, ?_, fun loaded he => ?_⟩
  · rw [hl]
    exact hd.reads
  · rw [← Option.some.inj he]
    exact hG

/-- Reading the attempt of the link, which is there if it is found. -/
theorem follows_getAttempt {loaded : List RecoveryAttempt} {attemptId : Uuid}
    {K : Except Raised (Option RecoveryAttempt) → Prog sig Outcome}
    (hs : Here t p h F s) (hp : ∀ st ∈ p, st.table ≠ .recoveryAttempts)
    (hloaded : ∀ a ∈ loaded, .attemptExists a.id ∈ F)
    (hk : ∀ (attempt : Option RecoveryAttempt) h' s',
      ((h' = h ∧ Table.get? loaded attemptId = attempt) ∨
        h' = .selected (.attempt attemptId) attempt :: h) →
      Here t p h' (attempt.toList.map (fun a => .attemptExists a.id) ++ F) s' →
      Follows t (K (.ok attempt)) s') :
    Follows t ((getAttempt loaded attemptId).run >>= K) s := by
  unfold getAttempt
  split
  · next a ha =>
    -- answered from what the session has loaded
    refine hk (some a) h s (.inl ⟨rfl, ha⟩) (hs.forget fun f hf => ?_)
    rcases List.mem_append.mp hf with hf | hf
    · rw [List.mem_singleton.mp hf]
      exact hloaded a (Table.mem_of_get? ha)
    · exact hf
  · -- Otherwise it is selected; the delivery has flushed nothing on attempts.
    refine follows_select hs (fun db _ => ?_) fun ids s hs => ?_
    · change Table.get? (Store.applyAll p db).recoveryAttempts attemptId = _
      rw [Stmt.frame_recoveryAttempts hp]
      rfl
    · have hread : ∀ found : Option RecoveryAttempt,
          s.db.recoveryAttempts.get? attemptId = found →
          Here t p (.selected (.attempt attemptId) found :: h) F s →
          Follows t (K (.ok found)) s := by
        intro found hfound hs
        refine hk found _ s (.inr rfl) ?_
        cases found with
        | none => exact hs
        | some a =>
          exact hs.learn (f := .attemptExists a.id)
            (Table.get?_isSome_of_mem (Table.mem_of_get? hfound))
      exact hread _ rfl hs

/-- Either way the case is settled, it is changed once more and then committed. -/
theorem follows_move {d : Delivery} {now : Time} {G : List Fact} {after : RecoveryCase}
    {target : RecoveryCaseStatus} {dirty : List Stmt}
    {K : Except Raised WebhookStatus → Prog sig Outcome}
    (hr : Resumes h₀ h) (hc₀ : commits h = commits h₀)
    (hs : Here t (d.observeStmts now) h (G ++ F) s) (hd : AtCase d h F)
    (hv : canTransition after.status target) (htarget : target ≠ .executing)
    (hroot : Turns.SameRoot d.loaded.recoveryCase after) (hunkeyed : ∀ st ∈ dirty, st.Unkeyed)
    (htable : ∀ st ∈ dirty, st.table ≠ .recoveryCases)
    (hdirty : ∀ db : Db, Facts G db → Store.checkAll dirty db = none)
    (htxn : ∀ now' db, phase (.clock now' :: h) = .idle → AtCase d (.clock now' :: h) F →
      Facts F db → Txn (.clock now' :: h) db (d.observeStmts now ++
        transitionStmts d.loaded.recoveryCase after target d.correlationId
          (some "webhook_confirmed") dirty now'))
    (hk : OnEffected t h₀ d.event K) (herr : OnLate t h₀ K) :
    Follows t ((do
      let _ ← webhookTransition d.loaded.recoveryCase after target d.correlationId dirty
      Service.commit
      return WebhookStatus.processed : Service WebhookStatus).run >>= K) s := by
  have hcases : ∀ st ∈ d.observeStmts now, st.table ≠ .recoveryCases := fun st hst h => by
    have ht := d.table_observeStmts hst
    simp [h] at ht
  -- More is known here than the reads of the delivery say.
  have hFG : ∀ f ∈ F, f ∈ G ++ F := fun f hf => List.mem_append_right _ hf
  have hseen : Fact.caseSeen d.loaded.recoveryCase ∈ G ++ F := hFG _ hd.caseSeen
  have hopen : ∀ c, .insertCase c ∉
      .updateCase d.loaded.recoveryCase { after with status := target } :: dirty := by
    simpa using Stmt.insertCase_notMem hunkeyed
  rw [run_bind_bind, webhookTransition]
  refine follows_transition d.loaded.recoveryCase after target _ hs hv hunkeyed
    (fun db e _ _ _ => .of_idle hr.idle hopen) (fun now' s hs => ?_) fun sts s hp hc hs => ?_
  · -- The transition goes through: the delivery commits, and the case has moved on by it.
    simp only []
    rw [run_bind_bind]
    have hd := hd.cons (e := .clock now') fun _ _ => by simp
    refine follows_commit hs (fun db hF _ => ?_) fun db s hF hc hdb hs => ?_
    · exact htxn now' db (hr.clock now').idle hd fun f hf => hF f (hFG f hf)
    · have hclaimed : s.db.Claimed d.event.dedupKey := by
        rw [hdb]
        exact Db.claimed_of_claimStmt hc
      have hout : s.db.Outdated d.loaded.recoveryCase := by
        have hmove : Turns (transitionStmts d.loaded.recoveryCase after target d.correlationId
            (some "webhook_confirmed") dirty now') d.loaded.recoveryCase
            (d.loaded.recoveryCase.moved after target) := .transitionStmts hroot htable
        have hturns := hmove.of_prefix hcases
        rw [hdb]
        -- The row was the one loaded, and is one version on.
        exact hturns.outdated (Db.CaseSeen.of_checkAll (hF _ hseen) hcases hc)
          (Int.lt_succ _)
      have hno : claimOf (d.observeStmts now ++ transitionStmts d.loaded.recoveryCase after
          target d.correlationId (some "webhook_confirmed") dirty now') = none :=
        claimOf_eq_none_of_mem d.loaded.recoveryCase { after with status := target }
          (by simp [transitionStmts]) htarget
      exact hk _ _ _ s ((hr.clock now').committed hno)
        ⟨_, congrArg (List.cons _) hc₀, by simp [Delivery.observeStmts]⟩
        ((hd.cons fun _ _ => by simp).handled fun _ => by simp) (by simp) (by simp)
        ((hs.learn (f := .claimed d.event.dedupKey) hclaimed).learn
          (f := .outdated d.loaded.recoveryCase) hout)
  · -- the update was refused because another delivery was first
    have hok : ∀ db', s.db.Evolves db' → Store.checkAll dirty db' ≠ some .stale := fun db' hev => by
      rw [hdirty db' fun f hf => (hs.facts f (List.mem_append_left _ hf)).evolves hev]
      simp
    have hout : s.db.Outdated d.loaded.recoveryCase :=
      Db.CaseSeen.outdated (hs.fact hseen) fun r hr => version_ne_of_checkAll hok hcases hp hc hr
    exact herr _ _ s (hr.refused sts .stale) hc₀
      ((hd.cons fun _ _ => by simp).handled fun _ => by simp)
      (hs.learn (f := .outdated d.loaded.recoveryCase) hout)

/-- `_apply_payment_link_event`, from the attempt on. -/
theorem follows_settleCase {d : Delivery} {now : Time}
    {K : Except Raised WebhookStatus → Prog sig Outcome}
    (hr : Resumes h₀ h) (hc₀ : commits h = commits h₀) (hs : Here t (d.observeStmts now) h F s)
    (hd : AtCase d h F) (hexec : d.loaded.recoveryCase.status = .executing)
    (hattempts : ∀ a ∈ d.loaded.attempts, .attemptExists a.id ∈ F)
    (hk : OnEffected t h₀ d.event K) (herr : OnLate t h₀ K) :
    Follows t ((settleCase d.loaded d.observed d.correlationId).run >>= K) s := by
  unfold settleCase
  rw [run_bind_bind]
  refine follows_getAttempt hs (fun st hst h => ?_) hattempts fun attempt h' s hh' hs => ?_
  · have ht := d.table_observeStmts hst
    simp [h] at ht
  · -- Whether the attempt was selected or not, the delivery stands where it stood.
    have hr : Resumes h₀ h' := by
      obtain ⟨rfl, -⟩ | rfl := hh'
      · exact hr
      · exact hr.selected _ _ rfl
    have hd : AtCase d h' F := by
      obtain ⟨rfl, -⟩ | rfl := hh'
      · exact hd
      · exact hd.cons fun _ _ => by simp
    have hc₀ : commits h' = commits h₀ := by
      obtain ⟨rfl, -⟩ | rfl := hh'
      · exact hc₀
      · exact hc₀
    have hread : Table.get? d.loaded.attempts d.link.recoveryAttemptId = attempt ∨
        .selected (.attempt d.link.recoveryAttemptId) attempt ∈ h' := by
      obtain ⟨-, hloaded⟩ | rfl := hh'
      · exact .inl hloaded
      · exact .inr List.mem_cons_self
    simp only []
    rw [run_ite_bind]
    by_cases hpaid : d.observed.status = .paid ∧ d.observed.amountPaid ≥ d.observed.amount
    · rw [if_pos hpaid]
      -- The link is paid in full: the case is recovered.
      refine follows_move hr hc₀ hs hd ?_ (by simp) ⟨rfl, rfl, rfl, rfl⟩ (by simp) (by simp)
        (fun _ _ => rfl) (fun now' db hidle hd hF => ?_) hk herr
      · change canTransition d.loaded.recoveryCase.status .recovered
        rw [hexec]
        rfl
      · exact .recovered d now now' hidle (hd.known hF) hexec hpaid
    · rw [if_neg hpaid]
      -- It is not: the case fails, with a note on the attempt if there is one.
      cases attempt with
      | none =>
        exact follows_move hr hc₀ hs hd (by rw [hexec]; rfl) (by simp) (.refl _) (by simp) (by simp)
          (fun _ _ => rfl) (fun now' db hidle hd hF =>
            .failed d none now now' hidle (hd.known hF) hexec hpaid
              (hread.imp_right (List.mem_cons_of_mem _))) hk herr
      | some attempt =>
        refine follows_move hr hc₀ hs hd (by rw [hexec]; rfl) (by simp) (.refl _)
          (attempt.unkeyed_pendingUpdate _) (fun st hst => ?_) (fun db hF => ?_)
          (fun now' db hidle hd hF => ?_) hk herr
        · rw [RecoveryAttempt.table_of_mem_pendingUpdate hst]
          simp
        · exact checkAll_pendingUpdate_attempt (hF (.attemptExists attempt.id) (by simp))
        · exact .failed d (some attempt) now now' hidle (hd.known hF) hexec hpaid
            (hread.imp_right (List.mem_cons_of_mem _))

/-! ### The link, and the claim -/

/-- A commit that begins with the claim ends the delivery well. -/
theorem follows_commitClaimed {sts : List Stmt} {status : WebhookStatus}
    {K : Except Raised WebhookStatus → Prog sig Outcome} (hstatus : status ≠ .duplicate)
    (hr : Resumes h₀ h) (hc₀ : commits h = commits h₀) (hh : Handled h F)
    (hno : ∀ st ∈ sts, st.caseUpdate? = none) (hs : Here t (Delivery.claimStmt event :: sts) h F s)
    (htxn : ∀ db, Facts F db → Txn h db (Delivery.claimStmt event :: sts))
    (hk : OnEffected t h₀ event K) :
    Follows t ((do
      Service.commit
      return status : Service WebhookStatus).run >>= K) s := by
  rw [run_bind_bind]
  refine follows_commit hs (fun db hF _ => htxn db hF) fun db s _ hc hdb hs => ?_
  have hclaimed : s.db.Claimed event.dedupKey := by
    rw [hdb]
    exact Db.claimed_of_claimStmt hc
  have hclaim : claimOf (Delivery.claimStmt event :: sts) = none :=
    claimOf_eq_none_of_forall fun st hst => by
      rcases List.mem_cons.mp hst with rfl | hst
      · rfl
      · exact hno st hst
  -- What was settled for the links found so far stays settled.
  have hsettled : Handled (.committed (Delivery.claimStmt event :: sts) :: h)
      (.claimed event.dedupKey :: F) :=
    LinksRead.imp (hh.cons fun _ _ => by simp) fun _ ⟨reference, found, hread, hout⟩ =>
      ⟨reference, found, hread, fun loaded hf he => List.mem_cons_of_mem _ (hout loaded hf he)⟩
  exact hk status _ _ s (hr.committed hclaim) ⟨_, congrArg (List.cons _) hc₀, List.mem_cons_self⟩
    hsettled List.mem_cons_self hstatus (hs.learn (f := .claimed event.dedupKey) hclaimed)

/-- `_apply_payment_link_event`. -/
theorem follows_applyPaymentLinkEvent {paymentLinkId : String}
    {K : Except Raised WebhookStatus → Prog sig Outcome} (hr : Resumes h₀ h)
    (hc₀ : commits h = commits h₀) (hnone : LinksRead h fun _ => False)
    (hs : Here t [Delivery.claimStmt event] h F s)
    (hstarted : .started (.webhook event correlationId) ∈ h)
    (hlinkId : event.paymentLinkId = some paymentLinkId)
    (hrelevant : ∃ v, event.paymentLinkStatus = some v ∧ v ∈ relevantLinkStatuses)
    (hk : OnEffected t h₀ event K) (herr : OnLate t h₀ K) :
    Follows t ((applyPaymentLinkEvent event paymentLinkId correlationId).run >>= K) s := by
  unfold applyPaymentLinkEvent
  rw [run_bind_bind]
  -- The link of the event is looked up with the claim flushed.
  refine follows_select hs (fun _ _ => rfl) fun ids s hs => ?_
  have hr := hr.selected (.paymentRequestByProviderReference paymentLinkId)
    (Query.eval s.db ids (.paymentRequestByProviderReference paymentLinkId)) rfl
  have hstarted := List.mem_cons_of_mem (.selected (.paymentRequestByProviderReference paymentLinkId)
    (Query.eval s.db ids (.paymentRequestByProviderReference paymentLinkId))) hstarted
  cases hq : Query.eval s.db ids (.paymentRequestByProviderReference paymentLinkId) with
  | none =>
    -- No such link: the delivery is noted, and its claim committed.
    rw [hq] at hs hr hstarted
    simp only []
    rw [run_bind_bind]
    refine follows_recordEvent hs fun now s hs => ?_
    refine follows_commitClaimed (by simp) (hr.clock now) hc₀ ?_
      (by simp [auditStmt, Stmt.caseUpdate?]) hs (fun db _ => ?_) hk
    · exact ((hnone.cons fun _ _ => by simp).cons fun _ _ => by simp).imp fun _ => False.elim
    exact .unmatched event correlationId paymentLinkId now (hr.clock now).idle
      (List.mem_cons_of_mem _ hstarted) hlinkId (by simp)
  | some link =>
    rw [hq] at hs hr hstarted
    have hmem : link ∈ s.db.recoveryPaymentRequests := List.mem_of_find?_eq_some hq
    have hreference : link.providerReference = paymentLinkId := by
      simpa using List.find?_some hq
    have hs := hs.learn (f := .linkSeen link)
      (.of_get? (hs.consistent.distinct.linkId.get?_of_mem hmem))
    simp only []
    rw [run_bind_bind]
    refine follows_select hs (fun _ _ => rfl) fun ids s hs => ?_
    have hr := hr.selected (.caseForExecution link.recoveryCaseId)
      (Query.eval s.db ids (.caseForExecution link.recoveryCaseId)) rfl
    have hstarted := List.mem_cons_of_mem (.selected (.caseForExecution link.recoveryCaseId)
      (Query.eval s.db ids (.caseForExecution link.recoveryCaseId))) hstarted
    cases hq : Query.eval s.db ids (.caseForExecution link.recoveryCaseId) with
    | none =>
      -- The case of the link is not there; the claim is committed all the same.
      rw [hq] at hs hr hstarted
      simp only []
      refine follows_commitClaimed (by simp) hr hc₀ ((hnone.found.cons fun _ _ => by simp).imp
        fun l hl => ⟨paymentLinkId, none, ?_, by simp⟩) (by simp) hs (fun db _ => ?_) hk
      · rw [hl]
        exact ⟨[], h, rfl⟩
      exact .detached event correlationId link.recoveryCaseId hr.idle hstarted List.mem_cons_self
    | some loaded =>
      rw [hq] at hs hr hstarted
      -- The event has one of the statuses that are acted on.
      obtain ⟨v, hv, hrel⟩ := hrelevant
      obtain ⟨status, hstatus, rfl⟩ := ofValue?_of_mem_relevantLinkStatuses hrel
      have hcase := (Db.caseForExecution_eq_some hq).1
      let d : Delivery := { event, correlationId, paymentLinkId, link, loaded, status }
      -- what is learned from the case, and from the attempts loaded with it
      let G : List Fact := loaded.attempts.map (fun a => .attemptExists a.id) ++
        .caseSeen loaded.recoveryCase :: .linkSeen link :: F
      have hFG : ∀ f ∈ F, f ∈ G := fun f hf => List.mem_append_right _
        (List.mem_cons_of_mem _ (List.mem_cons_of_mem _ hf))
      have hloaded : Facts (loaded.attempts.map fun a => .attemptExists a.id) s.db := by
        intro f hf
        obtain ⟨a, ha, rfl⟩ := List.mem_map.mp hf
        exact Db.attemptExists_of_mem_loaded hq ha
      have hs := (hs.learn (f := .caseSeen loaded.recoveryCase) (.of_get? hcase)).learnAll hloaded
      have hseen : ∀ db : Db, Facts G db → Store.checkAll [Delivery.claimStmt event] db = none →
          Store.checkAll (link.pendingUpdate d.observed)
            (Store.applyAll [Delivery.claimStmt event] db) = none := fun db hF hcheck =>
        checkAll_pendingUpdate_link (Db.LinkSeen.evolves (hF (.linkSeen link) (by simp [G]))
          (.applyAll hcheck))
      -- All that the delivery has read is the newest part of the record.
      have hd : AtCase d (.selected (.caseForExecution link.recoveryCaseId)
          (some loaded) :: .selected (.paymentRequestByProviderReference paymentLinkId)
          (some link) :: h) G := by
        refine ⟨hstarted, hlinkId, hreference, hv, hrel, ?_, ?_, ?_, ?_,
          hnone.found.cons fun _ _ => by simp⟩
        · simp [G, d]
        · simp [G, d]
        · exact Table.key_of_get? hcase
        · exact (List.prefix_append d.reads h).isInfix
      simp only [linkStatusOf, hv, Option.bind_some, hstatus]
      rw [run_bind_bind]
      refine follows_pure ?_
      simp only []
      rw [run_bind_bind]
      refine follows_recordEvent_dirty (link.pendingUpdate d.observed) hs
        (link.unkeyed_pendingUpdate _) (fun now db e hF hcheck hc => ?_) (fun now s hs => ?_)
        fun now sts s hcheck hc hs => ?_
      · -- The update of the link is not refused: the link was seen.
        rw [hseen db hF hcheck] at hc
        cases hc
      · have hr := hr.clock now
        have hd := hd.cons (e := .clock now) fun _ _ => by simp
        simp only []
        rw [run_ite_bind]
        by_cases hexec : loaded.recoveryCase.status = .executing
        · -- The case is executing: the event decides it.
          rw [if_neg (not_not_intro hexec)]
          exact follows_settleCase hr hc₀ hs hd hexec
            (fun a ha => List.mem_append_left _ (List.mem_map.mpr ⟨a, ha, rfl⟩))
            hk herr
        · -- It has moved on: the change of the link is all.
          rw [if_pos hexec]
          refine follows_commitClaimed (by simp) hr hc₀ (hd.handled fun he => absurd he hexec)
            (fun st hst => ?_) hs (fun db hF => .observed d now hr.idle (hd.known hF) hexec) hk
          change st ∈ link.pendingUpdate d.observed ++ [_] at hst
          rcases List.mem_append.mp hst with hst | hst
          · rw [RecoveryPaymentRequest.eq_of_mem_pendingUpdate hst]
            rfl
          · rw [List.mem_singleton.mp hst]
            rfl
      · rw [hseen s.db hs.facts hcheck] at hc
        cases hc

/-- Behind the claim, the guard included. -/
theorem follows_guarded_applyPaymentLinkEvent {paymentLinkId : String}
    {K : Except Raised WebhookStatus → Prog sig Outcome} (hr : Resumes h₀ h)
    (hc₀ : commits h = commits h₀) (hnone : LinksRead h fun _ => False)
    (hs : Here t [Delivery.claimStmt event] h F s)
    (hstarted : .started (.webhook event correlationId) ∈ h)
    (hlinkId : event.paymentLinkId = some paymentLinkId)
    (hrelevant : ∃ v, event.paymentLinkStatus = some v ∧ v ∈ relevantLinkStatuses)
    (hk : OnEffected t h₀ event K)
    (herr : ∀ e h' G s', Resumes h₀ h' → commits h' = commits h₀ → Handled h' G →
      Here t [] h' G s' → Follows t (K (.error e)) s') :
    Follows t ((guardAgainstConcurrentModification
      (applyPaymentLinkEvent event paymentLinkId correlationId)).run >>= K) s := by
  rw [run_guard_bind]
  exact follows_applyPaymentLinkEvent hr hc₀ hnone hs hstarted hlinkId hrelevant hk
    fun h' G s' hr hc hh hs => follows_guarded_stale hs fun m s hs => herr _ h' G s hr hc hh hs

/-- A key that cannot be claimed is taken, unless the event has no type. -/
theorem Db.claimed_of_check_claimStmt {db : Db} {e : DbError}
    (hc : Store.check (Delivery.claimStmt event) db = some e) :
    e = .integrity ∧ (event.eventType ≠ none → db.Claimed event.dedupKey) := by
  change Stmt.unlessTaken _ = some e at hc
  refine ⟨Stmt.eq_integrity_of_unlessTaken hc, fun htype => ?_⟩
  -- Either of two columns can refuse the row.
  unfold Stmt.unlessTaken at hc
  split at hc
  · next htaken =>
    rw [Bool.or_eq_true, Option.isNone_iff_eq_none] at htaken
    exact htaken.resolve_left htype
  · cases hc

/-- `_claim_event`: the key is claimed by this delivery, or was claimed before, unless the row
of an event without a type was refused. -/
theorem follows_claimEvent {K : Except Raised Bool → Prog sig Outcome}
    (hidle : phase h = .idle) (hnone : LinksRead h fun _ => False) (hs : Here t [] h F s)
    (hclaimed : ∀ h' s', Resumes h h' → commits h' = commits h → (LinksRead h' fun _ => False) →
      Here t [Delivery.claimStmt event] h' F s' → Follows t (K (.ok true)) s')
    (hduplicate : ∀ h' G s', Resumes h h' → commits h' = commits h → (LinksRead h' fun _ => False) →
      (event.eventType ≠ none → .claimed event.dedupKey ∈ G) → Here t [] h' G s' →
      Follows t (K (.ok false)) s') :
    Follows t ((claimEvent event).run >>= K) s := by
  unfold claimEvent
  rw [run_bind_bind]
  refine follows_select hs (fun _ _ => rfl) fun ids s hs => ?_
  have hr := (Resumes.refl hidle).selected (.processedWebhookEvent event.dedupKey)
    (Query.eval s.db ids (.processedWebhookEvent event.dedupKey)) rfl
  have hn := hnone.cons (e := .selected (.processedWebhookEvent event.dedupKey)
    (Query.eval s.db ids (.processedWebhookEvent event.dedupKey))) fun _ _ => by simp
  generalize hfound : Query.eval s.db ids (.processedWebhookEvent event.dedupKey) = found at *
  cases found with
  | some e =>
    -- The key is in the ledger already.
    refine hduplicate _ _ s hr rfl hn (fun _ => List.mem_cons_self)
      (hs.learn (f := .claimed event.dedupKey) ?_)
    change Stmt.taken _ _ _ = true
    rw [Stmt.taken, List.any_eq_true]
    exact ⟨e, List.mem_of_find?_eq_some hfound, by simpa using List.find?_some hfound⟩
  | none =>
    simp only [Option.isSome_none, Bool.false_eq_true, if_false]
    rw [run_tryCatch_bind, run_bind_bind]
    -- It is not: the claim is inserted, and may still be refused by another delivery.
    refine follows_flush hs (fun s hs => hclaimed _ s hr rfl hn hs) (fun db e _ _ hc => ?_)
      fun e s _ hc hs => ?_
    · rw [Store.checkAll, Store.checkAll, Option.or_none] at hc
      obtain ⟨rfl, -⟩ := Db.claimed_of_check_claimStmt hc
      exact .of_idle hr.idle (by simp)
    · rw [Store.checkAll, Store.checkAll, Option.or_none] at hc
      obtain ⟨rfl, htaken⟩ := Db.claimed_of_check_claimStmt hc
      simp only [DbError.raised]
      rw [run_bind_bind]
      have hr := hr.refused [Delivery.claimStmt event] .integrity
      have hn := hn.cons (e := .refused [Delivery.claimStmt event] .integrity) fun _ _ => by simp
      -- a row without a type is refused whether the key is taken or not
      by_cases htype : event.eventType = none
      · exact follows_rollback hs fun s hs =>
          hduplicate _ _ s hr rfl hn (fun hne => absurd htype hne) hs
      · have hs := hs.learn (f := .claimed event.dedupKey) (htaken htype)
        exact follows_rollback hs fun s hs =>
          hduplicate _ _ s hr rfl hn (fun _ => List.mem_cons_self) hs

/-- **The webhook service keeps the protocol.** -/
theorem follows_processWebhookEvent {K : Except Raised WebhookProcessResult → Prog sig Outcome}
    (hidle : phase h = .idle) (hnone : LinksRead h fun _ => False) (hs : Here t [] h F s)
    (hstarted : .started (.webhook event correlationId) ∈ h)
    (hk : ∀ result h' G s', Resumes h h' →
      (if result.status = .duplicate then commits h' = commits h else Effected event h h') →
      Handled h' G → (event.eventType ≠ none → .claimed event.dedupKey ∈ G) → Here t [] h' G s' →
      Follows t (K (.ok result)) s')
    (herr : ∀ e h' G s', Resumes h h' → commits h' = commits h → Handled h' G →
      Here t [] h' G s' → Follows t (K (.error e)) s') :
    Follows t ((processWebhookEvent event correlationId).run >>= K) s := by
  unfold processWebhookEvent
  rw [run_bind_bind]
  refine follows_claimEvent hidle hnone hs (fun h' s hr hc₀ hn hs => ?_)
    fun h' G s hr hc₀ hn hclaimed hs => ?_
  · -- the claim is flushed; what it is worth depends on the event
    have hstarted : .started (.webhook event correlationId) ∈ h' := hr.suffix.mem hstarted
    have hignored : (event.paymentLinkId = none ∨
        event.paymentLinkStatus.all (fun status => decide (status ∉ relevantLinkStatuses)) = true) →
        Follows t ((do
          Service.commit
          return { status := .ignored, eventType := event.eventType } :
            Service WebhookProcessResult).run >>= K) s := by
      intro hirrelevant
      rw [run_bind_bind]
      refine follows_commit hs (fun db _ _ => ?_) fun db s _ hc hdb hs => ?_
      · exact .ignored event correlationId hr.idle hstarted hirrelevant
      · have hclaimed : s.db.Claimed event.dedupKey := by
          rw [hdb]
          exact Db.claimed_of_claimStmt hc
        have hno : claimOf [Delivery.claimStmt event] = none :=
          claimOf_eq_none_of_forall (by simp [Delivery.claimStmt, Stmt.caseUpdate?])
        exact hk _ _ _ s (hr.committed hno)
          (by simpa using ⟨_, congrArg (List.cons _) hc₀, List.mem_cons_self⟩)
          ((hn.cons fun _ _ => by simp).imp fun _ => False.elim) (fun _ => List.mem_cons_self)
          (hs.learn (f := .claimed event.dedupKey) hclaimed)
    -- The event may be about no link, or about no status that is acted on.
    simp only [Bool.not_true, Bool.false_eq_true, if_false]
    cases hid : event.paymentLinkId with
    | none => exact hignored (.inl hid)
    | some paymentLinkId =>
      simp only []
      rw [run_ite_bind]
      by_cases hirrelevant : event.paymentLinkStatus.all
          (fun status => decide (status ∉ relevantLinkStatuses)) = true
      · rw [if_pos hirrelevant]
        exact hignored (.inr hirrelevant)
      · rw [if_neg hirrelevant, run_bind_bind]
        have hrelevant : ∃ v, event.paymentLinkStatus = some v ∧ v ∈ relevantLinkStatuses := by
          cases hv : event.paymentLinkStatus with
          | none => rw [hv] at hirrelevant; exact absurd rfl hirrelevant
          | some v => rw [hv] at hirrelevant; simpa using hirrelevant
        exact follows_guarded_applyPaymentLinkEvent hr hc₀ hn hs hstarted hid hrelevant
          (fun status h'' G s hr he hh hc hst hs => hk _ h'' G s hr
            (by rw [if_neg hst]; exact he) hh (fun _ => hc) hs) herr
  · -- The claim was not made, and the delivery ends as a duplicate.
    exact hk _ h' G s hr hc₀ (hn.imp fun _ => False.elim) hclaimed hs

end RecoverAI
