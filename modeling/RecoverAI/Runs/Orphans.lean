import RecoverAI.Runs.Links

/-!
# Links without a record

An execution has its case in hand from its claim until it has recorded a link or given
the case up. While it waits for the provider, a delivery about an older link of the case
may move the row; the execution then loses its last transaction, and the link that was
made for it is recorded nowhere. `HandsOff` is the condition that nobody moves a case
that another operation has in hand. Under it the case in hand is the row (`Extends.held`),
so each link that was made is on its way, recorded, or left with an escalated case
(`Kept`).
-/

namespace RecoverAI

open Interleave

variable {H H' : History} {t u : Tid} {e : Event} {sts : List Stmt} {c : RecoveryCase}

/-! ### What an operation with a case in hand commits -/

/-- The transactions of an operation that has the case `c` in hand. -/
inductive HandTxn (h : List Event) (c : RecoveryCase) : List Stmt → Prop
  /-- It notes its attempt, or what a search has found, and keeps the case in hand. -/
  | noted {sts : List Stmt} (frame : ∀ st ∈ sts, st.table ≠ .recoveryCases)
      (at_ : (∃ c, phase h = .claimed c) ∨ ∃ c a made found, phase h = .searched c a made found) :
      HandTxn h c sts
  | recorded (attempt : RecoveryAttempt) (made : Option PaymentLinkSnapshot)
      (link : PaymentLinkSnapshot) (id : Uuid) (completedAt : Time) (correlationId : String)
      (t : Time)
      (inHand : phase h = .called c attempt made (.ok link) ∨
        phase h = .reconciled c attempt made (.ok (some link))) :
      HandTxn h c (recordStmts c attempt link id completedAt correlationId t)
  | gaveUp (attempt : RecoveryAttempt) (made : Option PaymentLinkSnapshot)
      (category : ProviderFailureCategory) (message reason correlationId : String)
      (completedAt t : Time)
      (inHand : (∃ e, phase h = .called c attempt made (.error (.paymentProvider e)) ∧
          e.kind ≠ .ambiguous) ∨
        (∃ found, phase h = .reconciled c attempt made found ∧ ∀ link, found ≠ .ok (some link))) :
      HandTxn h c (giveUpStmts c attempt category message reason correlationId completedAt t)

/-- **An operation with a case in hand commits nothing else.** -/
theorem Txn.hand {h : List Event} {db : Db} (htxn : Txn h db sts)
    (hc : (phase h).case? = some c) : HandTxn h c sts := by
  -- Only an idle operation claims, diagnoses or delivers.
  have hnot : phase h ≠ .idle := fun hidle => by
    rw [hidle] at hc
    cases hc
  cases htxn with
  | attempted c' payment correlationId reference id startedAt createdAt now op claimed =>
    exact .noted (by simp [attemptStmts, auditStmt, Stmt.table]) (.inl ⟨c', claimed⟩)
  | reconciled c' attempt made found error link searchError correlationId now now' op searched =>
    exact .noted (by simp [reconcileStmts, auditStmt, Stmt.table])
      (.inr ⟨c', attempt, made, found, searched⟩)
  | recorded c' attempt made link id completedAt correlationId now op inHand =>
    have hc' := CaseStep.case?_of_inHand inHand
    rw [hc, Option.some.injEq] at hc'
    subst hc'
    exact .recorded attempt made link id completedAt correlationId now inHand
  | gaveUp c' attempt made category message reason correlationId completedAt now op inHand =>
    have hc' := CaseStep.case?_of_gaveUp inHand
    rw [hc, Option.some.injEq] at hc'
    subst hc'
    exact .gaveUp attempt made category message reason correlationId completedAt now inHand
  | _ => exact absurd ‹phase h = .idle› hnot

/-- What keeps the case in hand leaves the cases alone. -/
theorem HandTxn.frame {h : List Event} (hs : HandTxn h c sts)
    (hc : ((phase h).next (.committed sts)).case? ≠ none) :
    ∀ st ∈ sts, st.table ≠ .recoveryCases := by
  cases hs with
  | noted frame => exact frame
  | recorded attempt made link id completedAt correlationId now inHand =>
    -- Once it has recorded or given up, an execution is done and has nothing in hand.
    rcases inHand with hp | hp <;> rw [hp] at hc <;> exact absurd rfl hc
  | gaveUp attempt made category message reason correlationId completedAt now inHand =>
    rcases inHand with ⟨error, hp, -⟩ | ⟨found, hp, -⟩ <;> rw [hp] at hc <;> exact absurd rfl hc

/-! ### Hands off -/

/-- The transaction moves no case that another operation has in hand. -/
def HandsOff (H : History) (_ : Db) (t : Tid) (sts : List Stmt) : Prop :=
  ∀ c ∈ sts.filterMap Stmt.caseUpdate?, ∀ p ∈ H, p.1 ≠ t →
    (phase (H.own p.1)).case?.map RecoveryCase.id ≠ some c.1.id

instance (H : History) (db : Db) (t : Tid) (sts : List Stmt) : Decidable (HandsOff H db t sts) :=
  inferInstanceAs (Decidable (∀ c ∈ sts.filterMap Stmt.caseUpdate?, ∀ p ∈ H, p.1 ≠ t →
    (phase (H.own p.1)).case?.map RecoveryCase.id ≠ some c.1.id))

/-- An update of the case is among those the condition speaks of. -/
theorem mem_caseUpdates {before after : RecoveryCase} (h : .updateCase before after ∈ sts)
    (hid : before.id = c.id) : ∃ x ∈ sts.filterMap Stmt.caseUpdate?, x.1.id = c.id :=
  ⟨(before, after), List.mem_filterMap.mpr ⟨_, h, rfl⟩, hid⟩

/-- A transition updates its case. -/
theorem mem_transitionStmts {before after : RecoveryCase} {target : RecoveryCaseStatus}
    {correlationId : String} {reason : Option String} {dirty : List Stmt} {now : Time} :
    .updateCase before { after with status := target } ∈
      transitionStmts before after target correlationId reason dirty now :=
  List.mem_append_left _ List.mem_cons_self

/-- A move of a case updates its row. -/
theorem CaseStep.update_mem {h : List Event} {db : Db} {c c' : RecoveryCase}
    (hs : CaseStep h db sts c c') : ∃ x ∈ sts.filterMap Stmt.caseUpdate?, x.1.id = c.id := by
  cases hs with
  -- In each case the update is among the statements; only its place differs.
  | turnedAway d => exact mem_caseUpdates (List.mem_cons_of_mem _ mem_transitionStmts) rfl
  | diagnosed d =>
    exact mem_caseUpdates (List.mem_append_right _ (List.mem_append_right _ mem_transitionStmts))
      d.reviewed_id
  | claimed x => exact mem_caseUpdates (List.mem_append_right _ mem_transitionStmts) rfl
  | withheld x => exact mem_caseUpdates (List.mem_append_right _ mem_transitionStmts) rfl
  | recorded => exact mem_caseUpdates List.mem_cons_self rfl
  | gaveUp => exact mem_caseUpdates (List.mem_append_right _ mem_transitionStmts) rfl
  | recovered d => exact mem_caseUpdates (List.mem_append_right _ mem_transitionStmts) rfl
  | failed d => exact mem_caseUpdates (List.mem_append_right _ mem_transitionStmts) rfl

/-- An operation with a case in hand has left events. -/
theorem exists_of_phase (hc : (phase (H.own u)).case? = some c) : ∃ p ∈ H, p.1 = u := by
  by_contra hno
  rw [phase_own_of_notMem fun p hp hpu => hno ⟨p, hp, hpu⟩] at hc
  cases hc

/-- **Hands off, so the case in hand is the row.** -/
theorem Extends.held (h : Extends (CommitsMeet HandsOff) [] H)
    (hc : (phase (H.own u)).case? = some c) : H.replay.recoveryCases.get? c.id = some c := by
  induction h with
  | refl => cases hc
  | @cons H t e before permitted checked cond ih =>
    have hlawful : Lawful ((t, e) :: H) :=
      .cons (before.mono fun _ _ _ _ => trivial) permitted checked trivial
    -- Either the case was in hand before, or it is claimed now.
    rcases hlawful.inHand_cons hc with hbefore | ⟨x, rfl, rfl, -, -, hrow⟩
    · have hrow := ih hbefore
      cases e with
      | committed sts =>
        rw [History.replay_cons, Event.applyTo_committed]
        by_cases hut : u = t
        · -- the operation itself keeps the case in hand
          subst hut
          rw [History.own_cons_self, phase_cons] at hc
          have hframe : ∀ st ∈ sts, st.table ≠ .recoveryCases :=
            (permitted.hand hbefore).frame (by rw [hc]; simp)
          rw [Stmt.frame_recoveryCases hframe]
          exact hrow
        · -- another operation commits
          cases hlawful.caseEffect with
          | same quiet cases => rw [cases]; exact hrow
          | opened rows quiet cases fresh => rw [cases]; exact Table.get?_append_of_some hrow rows
          | moved c₁ c₂ step row cases =>
            obtain ⟨x, hx, hid⟩ := step.update_mem
            obtain ⟨p, hp, rfl⟩ := exists_of_phase hbefore
            -- The condition keeps it from a case that is in hand.
            have hne : c₁.id ≠ c.id := fun he => by
              refine cond sts rfl x hx p hp hut ?_
              rw [hbefore, Option.map_some, hid, he]
            rw [cases, if_neg hne]
            exact hrow
      | _ => exact hrow
    · -- The claim has written the very row that is in hand.
      have hafter := x.turns_claimStmts _ hrow x.recoveryCase.id
      rw [if_pos rfl] at hafter
      exact hafter

/-! ### The provider -/

/-- The link that was made for the call an execution is handling. -/
def Phase.made? : Phase → Option PaymentLinkSnapshot
  | .called _ _ made _ => made
  | .searched _ _ made _ => made
  | .reconciled _ _ made _ => made
  | _ => none

/-- The answer is a result, or one of the provider's own errors. -/
def allowed {α : Type} : Except ProviderException α → Bool
  | .error (.other _) => false
  | _ => true

/-- An answer that is allowed does not end the execution. -/
theorem Phase.unlessRaised_of_allowed {α : Type} {answer : Except ProviderException α}
    -- a domain error, any other exception, or a result
    (h : allowed answer = true) (p : Phase) : p.unlessRaised answer = p := by
  rcases answer with (_ | _) | _
  · rfl
  · cases h
  · rfl

/-- A search that finds a link finds the one that was made. -/
def findsMade (made : Option PaymentLinkSnapshot)
    (answer : Except ProviderException (Option PaymentLinkSnapshot)) : Bool :=
  match made, answer with
  | some link, .ok (some found) => found.providerReference = link.providerReference
  | _, _ => true

/-- The provider keeps to its interface: it raises its own errors only, and finds what it
has made. -/
def KeepsInterface (w : World) (a : Action) : Prop :=
  match a with
  | .run _ (.created _ answer) => allowed answer = true
  | .run t (.found answer) =>
    allowed answer = true ∧ findsMade (phase (w.shared.own t)).made? answer = true
  | _ => True

instance (w : World) : (a : Action) → Decidable (KeepsInterface w a)
  | .run t i =>
    match i with
    | .created _ answer => inferInstanceAs (Decidable (allowed answer = true))
    | .found answer => inferInstanceAs (Decidable (allowed answer = true ∧
        findsMade (phase (w.shared.own t)).made? answer = true))
    | .go => .isTrue trivial
    | .ranking _ => .isTrue trivial
    | .time _ => .isTrue trivial
    | .uuid _ => .isTrue trivial
    | .settings _ => .isTrue trivial
    | .recommendation _ => .isTrue trivial
  | .start _ => .isTrue trivial
  | .finish _ => .isTrue trivial
  | .crash _ => .isTrue trivial

/-- The rows an execution is about to flush for a link that was made are new: no unique
value is taken, as it would be if an id were drawn twice or the provider used a reference
again. -/
def FreshLinks (w : World) (a : Action) : Prop :=
  match w.flushes? a with
  | some (t, sts) => (phase (w.shared.own t)).made? = none ∨
      Store.checkAll sts (w.shared.view t) ≠ some .integrity
  | none => True

instance (w : World) (a : Action) : Decidable (FreshLinks w a) := by
  unfold FreshLinks
  rcases w.flushes? a with _ | ⟨t, sts⟩
  · exact inferInstanceAs (Decidable True)
  · exact inferInstanceAs (Decidable (_ ∨ _))

/-- The events of a run in which all this holds. -/
structure Careful (H : History) (t : Tid) (e : Event) : Prop where
  handsOff : CommitsMeet HandsOff H t e
  created : ∀ caseId request made answer, e = .created caseId request made answer →
    allowed answer = true
  found : ∀ referenceId answer, e = .found referenceId answer →
    allowed answer = true ∧ findsMade (phase (H.own t)).made? answer = true
  fresh : ∀ sts, e = .refused sts .integrity → (phase (H.own t)).made? = none

/-- A run under the conditions leaves such a record. -/
theorem extends_of_careful {w w' : World} (hw : Reachable w)
    (h : machine.ReachesVia (fun w a => OnCommit HandsOff w a ∧ KeepsInterface w a ∧ FreshLinks w a)
      w w') : Extends Careful w.shared.history w'.shared.history := by
  refine extends_of_reachesVia hw h fun w₁ a w₂ t e hw₁ hok hstep hh => ⟨?_, ?_, ?_, ?_⟩
  · -- commits
    intro sts he
    subst he
    have hcommit := hok.1
    rw [OnCommit, commits?_of_step hstep hh, Reachable.db_eq hw₁] at hcommit
    exact hcommit
  · -- answers of the call
    intro caseId request made answer he
    subst he
    have hanswer := hok.2.1
    rw [created_of_step hstep hh] at hanswer
    exact hanswer
  · -- answers of the search
    intro referenceId answer he
    subst he
    have hanswer := hok.2.1
    rw [found_of_step hstep hh] at hanswer
    exact hanswer
  · -- refusals of new rows
    intro sts he
    subst he
    obtain ⟨hflush, hcheck⟩ := flushes?_of_step hstep hh
    have hfresh := hok.2.2
    rw [FreshLinks, hflush] at hfresh
    exact hfresh.resolve_right fun hne => hne hcheck

/-! ### Links on their way -/

/-- The execution is handling the call that made the link. -/
inductive InFlight (caseId : Uuid) (link : PaymentLinkSnapshot) : Phase → Prop
  | called (c : RecoveryCase) (attempt : RecoveryAttempt)
      (answer : Except ProviderException PaymentLinkSnapshot) (onBehalf : c.id = caseId)
      (truly : answersTruly (some link) answer = true) (ok : allowed answer = true) :
      InFlight caseId link (.called c attempt (some link) answer)
  | searched (c : RecoveryCase) (attempt : RecoveryAttempt)
      (found : Except ProviderException (Option PaymentLinkSnapshot)) (onBehalf : c.id = caseId)
      (finds : findsMade (some link) found = true) (ok : allowed found = true) :
      InFlight caseId link (.searched c attempt (some link) found)
  | reconciled (c : RecoveryCase) (attempt : RecoveryAttempt)
      (found : Except ProviderException (Option PaymentLinkSnapshot)) (onBehalf : c.id = caseId)
      (finds : findsMade (some link) found = true) :
      InFlight caseId link (.reconciled c attempt (some link) found)

/-- What becomes of a link that operation `t` had made for a case. -/
inductive Kept (H : History) (t : Tid) (caseId : Uuid) (link : PaymentLinkSnapshot) : Prop
  | inFlight (h : InFlight caseId link (phase (H.own t)))
  | recorded (h : ∃ l ∈ H.replay.recoveryPaymentRequests, l.recoveryCaseId = caseId ∧
      l.providerReference = link.providerReference)
  | escalated (h : H.replay.statusOf caseId = some .escalated)
  | killed (h : (t, .ended none) ∈ H)

section Kept

variable {caseId : Uuid} {link : PaymentLinkSnapshot}

/-- An execution with a link on its way has the case of the link in hand. -/
theorem InFlight.case? {p : Phase} (h : InFlight caseId link p) :
    ∃ c, p.case? = some c ∧ c.id = caseId := by
  cases h with
  | called c _ _ onBehalf => exact ⟨c, rfl, onBehalf⟩
  | searched c _ _ onBehalf => exact ⟨c, rfl, onBehalf⟩
  | reconciled c _ _ onBehalf => exact ⟨c, rfl, onBehalf⟩

/-- And it is the link that was made. -/
theorem InFlight.made? {p : Phase} (h : InFlight caseId link p) : p.made? = some link := by
  cases h <;> rfl

/-- What is recorded or escalated stays so. -/
theorem Kept.recorded_cons (h : Lawful ((u, e) :: H))
    (hl : ∃ l ∈ H.replay.recoveryPaymentRequests, l.recoveryCaseId = caseId ∧
      l.providerReference = link.providerReference) : Kept ((u, e) :: H) t caseId link := by
  obtain ⟨l, hl, hcase, hreference⟩ := hl
  obtain ⟨l', hl', hbecomes⟩ :=
    h.evolves_cons.paymentRequest _ _ (h.cons_inv.1.distinct.linkId.get?_of_mem hl)
  exact .recorded ⟨l', Table.mem_of_get? hl', hbecomes.recoveryCaseId.trans hcase,
    hbecomes.providerReference.trans hreference⟩

/-- An escalated case stays escalated. -/
theorem Kept.escalated_cons (h : Lawful ((u, e) :: H))
    (hs : H.replay.statusOf caseId = some .escalated) : Kept ((u, e) :: H) t caseId link := by
  -- ESCALATED is terminal.
  obtain ⟨c, hc, hstatus⟩ := Option.map_eq_some_iff.mp hs
  refine .escalated ?_
  rw [Db.statusOf, h.terminal_cons hc (by rw [hstatus]; rfl), Option.map_some, hstatus]

/-- A transaction of the execution that handles the call: it records the link or gives
the case up, unless it only notes what a search has found. -/
theorem Kept.of_commit (h : Lawful ((t, .committed sts) :: H))
    (hrow : H.replay.recoveryCases.get? c.id = some c)
    (hf : InFlight c.id link (phase (H.own t))) (hc : (phase (H.own t)).case? = some c) :
    Kept ((t, .committed sts) :: H) t c.id link := by
  have hand : HandTxn (H.own t) c sts := Txn.hand h.cons_inv.2.1 hc
  cases hand with
  | noted frame at_ =>
    -- before the call no link was made
    rcases at_ with ⟨c', hp⟩ | ⟨c', attempt, made, found, hp⟩
    · rw [hp] at hf
      cases hf
    · -- after the search the link is still in hand
      refine .inFlight ?_
      rw [hp] at hf
      rw [History.own_cons_self, phase_cons, hp]
      cases hf with
      | searched _ _ _ onBehalf finds => exact .reconciled _ _ _ onBehalf finds
  | recorded attempt made link' id completedAt correlationId now inHand =>
    -- It is the link that was made: the answer is true of it, and so is what the search has found.
    have hreference : link'.providerReference = link.providerReference := by
      rcases inHand with hp | hp
      · rw [hp] at hf
        cases hf with
        | called _ _ _ onBehalf truly =>
          have hsame : some link = some link' := by simpa [answersTruly] using truly
          rw [Option.some.inj hsame]
      · rw [hp] at hf
        cases hf with
        | reconciled _ _ _ onBehalf finds => simpa [findsMade] using finds
    refine .recorded ⟨paymentRequestOf id c attempt link', ?_, rfl, hreference⟩
    rw [History.replay_cons, Event.applyTo_committed, links_recordStmts]
    exact List.mem_append_right _ List.mem_cons_self
  -- To give up is to escalate.
  | gaveUp attempt made category message reason correlationId completedAt now inHand =>
    refine .escalated ?_
    have hafter := turns_giveUpStmts c attempt category message reason correlationId completedAt now
      _ hrow c.id
    rw [if_pos rfl] at hafter
    rw [History.replay_cons, Event.applyTo_committed, Db.statusOf, hafter]
    rfl

/-- **Whatever happens next, a link that was made is kept.** -/
theorem Kept.cons (hk : Kept H t caseId link) (h : Lawful ((u, e) :: H)) (hcare : Careful H u e)
    (held : ∀ c, (phase (H.own t)).case? = some c → H.replay.recoveryCases.get? c.id = some c) :
    Kept ((u, e) :: H) t caseId link := by
  cases hk with
  | recorded hl => exact .recorded_cons h hl
  | escalated hs => exact .escalated_cons h hs
  | killed hend => exact .killed (List.mem_cons_of_mem _ hend)
  | inFlight hf =>
    by_cases htu : t = u
    -- An event of another operation leaves the phase.
    case neg =>
      refine .inFlight ?_
      rw [History.own_cons_ne htu]
      exact hf
    subst htu
    obtain ⟨c, hc, rfl⟩ := hf.case?
    have hpermitted := h.cons_inv.2.1
    have hkeep : (phase (H.own t)).next e = phase (H.own t) → Kept ((t, e) :: H) t c.id link := by
      intro hnext
      refine .inFlight ?_
      rw [History.own_cons_self, phase_cons, hnext]
      exact hf
    cases e with
    | started op =>
      -- an operation starts once
      have hnil : H.own t = [] := hpermitted
      rw [hnil] at hc
      cases hc
    | selected q r => exact hkeep (Phase.next_selected _ q r)
    | clock now => exact hkeep (Phase.next_clock _ now)
    | configured s => exact hkeep (Phase.next_configured _ s)
    | recommended context answer => exact hkeep (Phase.next_recommended _ context answer)
    | committed sts => exact .of_commit h (held c hc) hf hc
    -- A refusal of either kind would lose the link.
    | refused sts error =>
      cases error with
      -- stale: the case is the row, since nobody has moved it
      | stale => exact absurd rfl (hpermitted.stale c hc rfl c (held c hc))
      | integrity =>
        -- a unique value: the ids and the reference are new
        have hmade := hcare.fresh sts rfl
        rw [hf.made?] at hmade
        cases hmade
    -- No call is made while one is being handled.
    | created caseId' request made answer =>
      obtain ⟨-, x, attempt, hcalled⟩ := hpermitted
      have hp := hcalled.attempted
      rw [hp] at hf
      cases hf
    | found referenceId answer =>
      -- A search follows an ambiguous answer, and keeps to the interface.
      obtain ⟨c', attempt, made, error, hp, -⟩ := hpermitted
      obtain ⟨hok, hfinds⟩ := hcare.found referenceId answer rfl
      rw [hf.made?] at hfinds
      refine .inFlight ?_
      rw [hp] at hf
      rw [History.own_cons_self, phase_cons, hp, Phase.next, Phase.unlessRaised_of_allowed hok]
      cases hf with
      | called _ _ _ onBehalf => exact .searched _ _ _ onBehalf hfinds hok
    -- An execution does not end with a link in hand, unless it is killed.
    | ended outcome =>
      cases outcome with
      | none => exact .killed List.mem_cons_self
      | some outcome =>
        have hmay := Ended.mayEnd hpermitted
        generalize phase (H.own t) = p at hf hmay
        cases hf <;> exact hmay.elim

end Kept

/-- **Every link that was made is kept**, in a careful run. -/
theorem Extends.kept {caseId : Uuid} {request : CreatePaymentLinkRequest}
    {link : PaymentLinkSnapshot} {answer : Except ProviderException PaymentLinkSnapshot}
    (h : Extends Careful [] H) (hcall : (t, .created caseId request (some link) answer) ∈ H) :
    Kept H t caseId link := by
  induction h with
  | refl => cases hcall
  | @cons H u e before permitted checked cond ih =>
    have hlawful : Lawful ((u, e) :: H) :=
      .cons (before.mono fun _ _ _ _ => trivial) permitted checked trivial
    have hheld := fun c => (before.mono fun _ _ _ hcare => hcare.handsOff).held (u := t) (c := c)
    -- The link is made by this very call, or was made before.
    rcases List.mem_cons.mp hcall with hnew | hold
    · cases hnew
      obtain ⟨htruly, x, attempt, hcalled⟩ := permitted
      have hok := cond.created _ _ _ _ rfl
      refine .inFlight ?_
      rw [History.own_cons_self, phase_cons, hcalled.attempted, Phase.next,
        Phase.unlessRaised_of_allowed hok]
      exact .called _ _ _ hcalled.onBehalf.symm htruly hok
    · exact (ih hold).cons hlawful cond hheld

/-- **No link is orphaned, as long as nobody moves a case in hand.** In a run in which no
transaction moves a case that another execution has in hand, the provider keeps to its
interface, and ids and references are new, every link that a finished operation had made
for a case is recorded for the case, or the case is escalated. -/
theorem recorded_or_escalated_of_handsOff {w : World} {caseId : Uuid}
    {request : CreatePaymentLinkRequest} {link : PaymentLinkSnapshot}
    {answer : Except ProviderException PaymentLinkSnapshot} {outcome : Outcome}
    (h : machine.ReachesVia (fun w a => OnCommit HandsOff w a ∧ KeepsInterface w a ∧ FreshLinks w a)
      World.empty w)
    (hcall : (t, .created caseId request (some link) answer) ∈ w.shared.history)
    (hended : (t, .ended (some outcome)) ∈ w.shared.history) :
    (∃ l ∈ w.shared.db.recoveryPaymentRequests, l.recoveryCaseId = caseId ∧
      l.providerReference = link.providerReference) ∨
    w.shared.db.statusOf caseId = some .escalated := by
  have hw : Reachable w := h.reaches
  have hext : Extends Careful [] w.shared.history := extends_of_careful Machine.Reaches.refl h
  obtain ⟨-, older, -, -, -, hown⟩ := Reachable.own_of_ended hw hended
  rw [Reachable.db_eq hw]
  cases hext.kept hcall with
  | inFlight hf =>
    -- an operation that has ended has nothing in hand
    rw [hown, phase_cons] at hf
    generalize phase (older.own t) = p at hf
    cases p <;> cases hf
  | recorded hl => exact .inl hl
  | escalated hs => exact .inr hs
  | killed hend =>
    -- An operation that was killed has no outcome.
    obtain ⟨-, older', -, -, -, hown'⟩ := Reachable.own_of_ended hw hend
    rw [hown'] at hown
    cases hown

/-- The link an event made at the provider, and the case it is for. -/
def Event.makes? : Event → Option (Uuid × PaymentLinkSnapshot)
  | .created caseId _ (some link) _ => some (caseId, link)
  | _ => none

/-- An event that made a link is a call. -/
theorem Event.exists_of_makes? {e : Event} {caseId : Uuid} {link : PaymentLinkSnapshot}
    (h : e.makes? = some (caseId, link)) :
    ∃ request answer, e = .created caseId request (some link) answer := by
  cases e with
  | created caseId' request made answer =>
    cases made with
    | none => cases h
    | some link' => cases h; exact ⟨request, answer, rfl⟩
  | _ => cases h

namespace Sample

/-- The answer to a call got lost, and the search finds the link. -/
def reconciled : List Action :=
  approved ++ alone 2 (.execute 3 "c") (claim ++ attempt 10 11 ++
    [.time 0, .created (some (link "L")) (.error (.paymentProvider ⟨.ambiguous, "-"⟩))] ++ audit ++
    [.found (.ok (some (link "L")))] ++ audit ++ [.go] ++ record 12)

/-- While the second execution of a case waits for the provider, the first link is
reported as cancelled. -/
def orphaned : List Action :=
  executed ++ alone 3 (.webhook (event "k" "L" "expired" none) "c") (deliver ++ settle) ++
    alone 4 (.diagnose 3 "c") (diagnose false .sendPaymentLink) ++
    [.start (.execute 3 "c")] ++ part 5 (claim ++ attempt 20 21 ++ call "M") ++
    alone 6 (.webhook (event "k'" "L" "cancelled" none) "c") (deliver ++ settle) ++
    part 5 [.time 0, .uuid 22, .go, .go] ++ [.finish 5]

end Sample

set_option maxRecDepth 10000 in
/-- The link that is found by the search is recorded. -/
theorem recorded_or_escalated_of_handsOff_reconciled :
    (∃ l ∈ (World.empty.after Sample.reconciled).shared.db.recoveryPaymentRequests,
      l.recoveryCaseId = 3 ∧ l.providerReference = "L") ∨
    (World.empty.after Sample.reconciled).shared.db.statusOf 3 = some .escalated := by
  have hrun : machine.ReachesVia
      (fun w a => OnCommit HandsOff w a ∧ KeepsInterface w a ∧ FreshLinks w a) World.empty
      (World.empty.after Sample.reconciled) := World.reachesVia_after (by decide +kernel)
  -- The call of the run, and its end, are found in the record.
  have hcall : ∃ p ∈ (World.empty.after Sample.reconciled).shared.history,
      p.1 = 2 ∧ p.2.makes? = some (3, Sample.link "L") := by decide +kernel
  have hended : ∃ p ∈ (World.empty.after Sample.reconciled).shared.history,
      p.1 = 2 ∧ p.2.isOutcome = true := by decide +kernel
  obtain ⟨⟨-, e⟩, hcall, rfl, he⟩ := hcall
  obtain ⟨⟨-, e'⟩, hended, rfl, he'⟩ := hended
  obtain ⟨request, answer, rfl⟩ := Event.exists_of_makes? he
  obtain ⟨outcome, rfl⟩ := Event.exists_of_isOutcome he'
  exact recorded_or_escalated_of_handsOff hrun hcall hended

set_option maxRecDepth 10000 in
/-- The second link is recorded nowhere, and the case has failed. -/
theorem orphaned_unrecorded : Reachable (World.empty.after Sample.orphaned) ∧
    (∃ p ∈ (World.empty.after Sample.orphaned).shared.history,
      p.1 = 5 ∧ p.2.makes? = some (3, Sample.link "M")) ∧
    (∃ p ∈ (World.empty.after Sample.orphaned).shared.history, p.1 = 5 ∧ p.2.isOutcome = true) ∧
    (∀ l ∈ (World.empty.after Sample.orphaned).shared.db.recoveryPaymentRequests,
      l.providerReference ≠ "M") ∧
    (World.empty.after Sample.orphaned).shared.db.statusOf 3 = some .failed :=
  ⟨World.reachable_after _, by decide +kernel, by decide +kernel, by decide +kernel,
    by decide +kernel⟩

end RecoverAI
