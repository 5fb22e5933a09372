import RecoverAI.Protocol.Tables
import RecoverAI.Refinement.Logic

/-!
# Following what the services share

The rules for the audit writer, for a transition and for the concurrency guard, and
the equations that bring the body of a service into the form the rules want: a
command followed by the rest (`run_bind_bind` and its relatives).
-/

namespace RecoverAI

open Interleave

variable {t : Tid} {p : List Stmt} {h : List Event} {F : List Fact} {s : State}

/-! ### Shapes -/

section Shapes

variable {α β γ : Type}

/-- The rest of a body goes into the continuation. -/
theorem run_bind_bind (x : Service α) (f : α → Service β) (K : Except Raised β → Prog sig γ) :
    (x >>= f).run >>= K = x.run >>= fun
      | .ok a => (f a).run >>= K
      | .error e => K (.error e) := by
  rw [ExceptT.run_bind, bind_assoc]
  congr 1
  funext r
  cases r <;> rfl

/-- So does what is done with its result. -/
theorem run_map_bind (x : Service α) (f : α → β) (K : Except Raised β → Prog sig γ) :
    (f <$> x).run >>= K = x.run >>= fun
      | .ok a => K (.ok (f a))
      | .error e => K (.error e) := by
  rw [← bind_pure_comp, run_bind_bind]
  rfl

/-- The handler of a body has the continuation too. -/
theorem run_tryCatch_bind (x : Service α) (f : Raised → Service α)
    (K : Except Raised α → Prog sig γ) :
    (tryCatch x f).run >>= K = x.run >>= fun
      | .ok a => K (.ok a)
      | .error e => (f e).run >>= K := by
  -- A try block runs its handler on an error and nothing else: first without a continuation.
  have hrun : (tryCatch x f).run = x.run >>= fun
      | .ok a => pure (.ok a)
      | .error e => (f e).run := by
    change ExceptT.run (ExceptT.tryCatch x f) = _
    rw [ExceptT.tryCatch, ExceptT.run_mk]
    congr 1
    funext r
    cases r <;> rfl
  rw [hrun, bind_assoc]
  congr 1
  funext r
  cases r <;> rfl

/-- Either branch is followed by the continuation. -/
theorem run_ite_bind (c : Prop) [Decidable c] (x y : Service α) (K : Except Raised α → Prog sig γ) :
    (if c then x else y).run >>= K = if c then x.run >>= K else y.run >>= K := by
  split <;> rfl

/-- A continuation behind the concurrency guard. -/
def guarded (K : Except Raised α → Prog sig γ) : Except Raised α → Prog sig γ
  | .error .staleData => Service.rollback.run >>= fun
    | .ok () => K (.error (.recoverAI (.concurrentModification
        ("This recovery case was modified by another request while this one was in " ++
          "progress. Reload it and, if still appropriate, retry."))))
    | .error e => K (.error e)
  | r => K r

/-- A guarded body is the body with a guarded continuation. -/
theorem run_guard_bind (x : Service α) (K : Except Raised α → Prog sig γ) :
    (guardAgainstConcurrentModification x).run >>= K = x.run >>= guarded K := by
  rw [guardAgainstConcurrentModification, run_tryCatch_bind]
  congr 1
  funext r
  cases r with
  | ok a => rfl
  | error e => cases e <;> rfl

end Shapes

/-- A body that returns. -/
theorem follows_pure {α : Type} {a : α} {K : Except Raised α → Prog sig Outcome}
    (h : Follows t (K (.ok a)) s) : Follows t ((pure a : Service α).run >>= K) s := h

/-- A body that raises. -/
theorem follows_raise {α : Type} {e : RecoverAIError} {K : Except Raised α → Prog sig Outcome}
    (h : Follows t (K (.error (.recoverAI e))) s) :
    Follows t ((Service.raise e : Service α).run >>= K) s := h

/-! ### Statements that only update -/

/-- Updates and audit events; no unique column is at stake. -/
def Stmt.Unkeyed : Stmt → Bool
  | .updateCase _ _ => true
  | .updateAttempt _ _ => true
  | .updatePaymentRequest _ _ => true
  | .insertAuditEvent _ => true
  | _ => false

/-- An unkeyed statement is refused for a stale version only. -/
theorem Stmt.eq_stale_of_check {st : Stmt} {db : Db} {e : DbError} (h : st.Unkeyed)
    (hc : Store.check st db = some e) : e = .stale := by
  change st.check db = some e at hc
  -- The only check an unkeyed statement has is that its row is matched.
  cases st <;> simp [Stmt.Unkeyed] at h <;> simp [Stmt.check, Stmt.ifMatched] at hc <;>
    exact hc.2.symm

/-- So is a list of them. -/
theorem Stmt.eq_stale_of_checkAll {sts : List Stmt} {db : Db} {e : DbError}
    (h : ∀ st ∈ sts, st.Unkeyed) (hc : Store.checkAll sts db = some e) : e = .stale := by
  -- The first statement that is refused is one of the list, whatever those before it have written.
  induction sts generalizing db with
  | nil => cases hc
  | cons st sts ih =>
    rw [Store.checkAll, Option.or_eq_some_iff] at hc
    rcases hc with hc | ⟨-, hc⟩
    · exact Stmt.eq_stale_of_check (h st List.mem_cons_self) hc
    · exact ih (fun st' hst' => h st' (List.mem_cons_of_mem _ hst')) hc

/-- The pending update of a case has no key, -/
theorem RecoveryCase.unkeyed_pendingUpdate (before after : RecoveryCase) :
    ∀ st ∈ before.pendingUpdate after, st.Unkeyed := by
  intro st hst
  rw [eq_of_mem_pendingUpdate hst]
  trivial

/-- nor that of an attempt, -/
theorem RecoveryAttempt.unkeyed_pendingUpdate (before after : RecoveryAttempt) :
    ∀ st ∈ before.pendingUpdate after, st.Unkeyed := by
  intro st hst
  rw [eq_of_mem_pendingUpdate hst]
  trivial

/-- nor that of a link. -/
theorem RecoveryPaymentRequest.unkeyed_pendingUpdate (before after : RecoveryPaymentRequest) :
    ∀ st ∈ before.pendingUpdate after, st.Unkeyed := by
  intro st hst
  rw [eq_of_mem_pendingUpdate hst]
  trivial

/-! ### Refusals -/

/-- With nothing in hand, an operation owes no account of a refusal. -/
theorem Refused.of_idle {db : Db} {sts : List Stmt} {e : DbError} (hidle : phase h = .idle)
    (hopen : ∀ c, .insertCase c ∉ sts) : Refused h db sts e where
  stale := fun c hc => by rw [hidle] at hc; cases hc
  integrity := fun c hc => by rw [hidle] at hc; cases hc
  opening := fun c hc => absurd hc (hopen c)

/-- Statements that only update open no case. -/
theorem Stmt.insertCase_notMem {sts : List Stmt} (h : ∀ st ∈ sts, st.Unkeyed) (c : RecoveryCase) :
    .insertCase c ∉ sts := fun hc => by cases h _ hc

/-- Rows that were seen are there to be updated. -/
theorem check_updateAttempt_eq_none {db : Db} {a b : RecoveryAttempt}
    (ha : db.AttemptExists a.id) : Store.check (Stmt.updateAttempt a b) db = none := by
  change Stmt.ifMatched _ = none
  rw [ha]
  rfl

/-- A link that was seen is there to be updated. -/
theorem check_updatePaymentRequest_eq_none {db : Db} {l b : RecoveryPaymentRequest}
    (hl : db.LinkSeen l) : Store.check (Stmt.updatePaymentRequest l b) db = none := by
  obtain ⟨r, hr, -⟩ := hl
  change Stmt.ifMatched _ = none
  rw [hr]
  rfl

/-- Then nothing pending on the attempt is refused, -/
theorem checkAll_pendingUpdate_attempt {db : Db} {a b : RecoveryAttempt}
    (ha : db.AttemptExists a.id) : Store.checkAll (a.pendingUpdate b) db = none := by
  unfold RecoveryAttempt.pendingUpdate
  split
  · rfl
  · rw [Store.checkAll_cons_eq_none]
    exact ⟨check_updateAttempt_eq_none ha, rfl⟩

/-- nor on the link. -/
theorem checkAll_pendingUpdate_link {db : Db} {l b : RecoveryPaymentRequest}
    (hl : db.LinkSeen l) : Store.checkAll (l.pendingUpdate b) db = none := by
  unfold RecoveryPaymentRequest.pendingUpdate
  split
  · rfl
  · rw [Store.checkAll_cons_eq_none]
    exact ⟨check_updatePaymentRequest_eq_none hl, rfl⟩

/-- A refused update of a case that was seen: its version has moved. -/
theorem version_ne_of_check {db : Db} {c after : RecoveryCase} {e : DbError}
    (hc : Store.check (Stmt.updateCase c after) db = some e) {r : RecoveryCase}
    (hr : db.recoveryCases.get? c.id = some r) : r.version ≠ c.version := by
  intro hv
  -- Had the row the version of the update, the check would have matched it.
  change Stmt.ifMatched _ = some e at hc
  rw [hr, Option.any_some, hv, decide_eq_true rfl] at hc
  cases hc

/-- A refused flush that begins with the update of a case, where the rest cannot
fail: the version of the case has moved. -/
theorem version_ne_of_checkAll {db : Db} {c after : RecoveryCase} {dirty : List Stmt}
    {e : DbError} (hd : ∀ db' : Db, db.Evolves db' → Store.checkAll dirty db' ≠ some e)
    (hp : ∀ st ∈ p, st.table ≠ .recoveryCases) (hcheck : Store.checkAll p db = none)
    (hc : Store.checkAll (.updateCase c after :: dirty) (Store.applyAll p db) = some e)
    {r : RecoveryCase} (hr : db.recoveryCases.get? c.id = some r) : r.version ≠ c.version := by
  rw [Store.checkAll, Option.or_eq_some_iff] at hc
  rcases hc with hc | ⟨hok, hc⟩
  · refine version_ne_of_check hc ?_
    -- What was flushed before touches no case, so the row is still the committed one.
    rw [Stmt.frame_recoveryCases hp]
    exact hr
  · -- Past the update of the case it is the rest that is refused, which cannot be.
    have hev : db.Evolves (Store.apply (Stmt.updateCase c after) (Store.applyAll p db)) :=
      (Db.Evolves.applyAll hcheck).trans (.apply hok)
    exact absurd hc (hd _ hev)

/-! ### The shared services -/

section Shared

variable {entity : AuditEntity} {body : AuditBody} {actorType : ActorType}
  {correlationId : String} {K : Except Raised Unit → Prog sig Outcome}

/-- An audit event on its own cannot fail. -/
theorem follows_recordEvent (hs : Here t p h F s)
    (hk : ∀ now s', Here t (p ++ [auditStmt entity body actorType correlationId now])
      (.clock now :: h) F s' → Follows t (K (.ok ())) s') :
    Follows t ((recordEvent entity body actorType correlationId []).run >>= K) s := by
  unfold recordEvent
  rw [run_bind_bind]
  refine follows_now hs fun now s hs => ?_
  exact follows_flush_of_checked hs (fun _ _ _ => rfl) fun s hs => hk now s hs

/-- With changed objects to write, the flush of an audit event can go stale. -/
theorem follows_recordEvent_dirty (dirty : List Stmt) (hs : Here t p h F s)
    (hd : ∀ st ∈ dirty, st.Unkeyed)
    (hrefused : ∀ now db e, Facts F db → Store.checkAll p db = none →
      Store.checkAll dirty (Store.applyAll p db) = some e →
      Refused (.clock now :: h) db
        (dirty ++ [auditStmt entity body actorType correlationId now]) e)
    (hk : ∀ now s',
      Here t (p ++ (dirty ++ [auditStmt entity body actorType correlationId now]))
        (.clock now :: h) F s' → Follows t (K (.ok ())) s')
    (herr : ∀ now sts s', Store.checkAll p s'.db = none →
      Store.checkAll dirty (Store.applyAll p s'.db) = some .stale →
      Here t [] (.refused sts .stale :: .clock now :: h) F s' →
      Follows t (K (.error .staleData)) s') :
    Follows t ((recordEvent entity body actorType correlationId dirty).run >>= K) s := by
  -- The audit event itself has nothing to be refused for.
  have hdirty : ∀ now (db : Db), Store.checkAll
      (dirty ++ [auditStmt entity body actorType correlationId now]) db
        = Store.checkAll dirty db := by
    intro now db
    rw [Store.checkAll_append]
    exact Option.or_none
  unfold recordEvent
  rw [run_bind_bind]
  refine follows_now hs fun now s hs => ?_
  refine follows_flush hs (fun s hs => hk now s hs) (fun db e hF hp hc => ?_)
    fun e s hp hc hs => ?_
  · exact hrefused now db e hF hp ((hdirty now _).symm.trans hc)
  · have hc := (hdirty now _).symm.trans hc
    obtain rfl := Stmt.eq_stale_of_checkAll hd hc
    exact herr now _ s hp hc hs

end Shared

/-- A legal transition either adds its statements or goes stale. -/
theorem follows_transition (before after : RecoveryCase) (target : RecoveryCaseStatus)
    (reason : Option String) {correlationId : String} {dirty : List Stmt}
    {K : Except Raised RecoveryCase → Prog sig Outcome} (hs : Here t p h F s)
    (hv : canTransition after.status target) (hd : ∀ st ∈ dirty, st.Unkeyed)
    (hrefused : ∀ db e, Facts F db → Store.checkAll p db = none →
      Store.checkAll (.updateCase before { after with status := target } :: dirty)
        (Store.applyAll p db) = some e →
      Refused h db (.updateCase before { after with status := target } :: dirty) e)
    (hk : ∀ now s',
      Here t (p ++ transitionStmts before after target correlationId reason dirty now)
        (.clock now :: h) F s' → Follows t (K (.ok (before.moved after target))) s')
    (herr : ∀ sts s', Store.checkAll p s'.db = none →
      Store.checkAll (.updateCase before { after with status := target } :: dirty)
        (Store.applyAll p s'.db) = some .stale →
      Here t [] (.refused sts .stale :: h) F s' → Follows t (K (.error .staleData)) s') :
    Follows t ((transition before after target correlationId reason dirty).run >>= K) s := by
  unfold transition
  -- The transition is legal, so the validation returns.
  rw [run_bind_bind]
  simp only [validateTransition, hv, if_true, Service.ofExcept]
  refine follows_pure ?_
  simp only []
  rw [run_bind_bind]
  refine follows_flush hs (fun s hs => ?_) hrefused fun e s hp hc hs => ?_
  · -- The flush goes through: the audit event follows it.
    simp only []
    rw [run_bind_bind]
    refine follows_recordEvent hs fun now s hs => ?_
    refine hk now s ?_
    rw [List.append_assoc] at hs
    exact hs
  · -- It is refused: none of the statements has a key, so it is stale.
    have hu : ∀ st ∈ Stmt.updateCase before { after with status := target } :: dirty,
        st.Unkeyed := by
      intro st hst
      rcases List.mem_cons.mp hst with rfl | hst
      · rfl
      · exact hd st hst
    obtain rfl := Stmt.eq_stale_of_checkAll hu hc
    exact herr _ s hp hc hs

/-! ### What a service leaves behind -/

/-- A service has taken the record `h` to `h'`. -/
structure Grows (h h' : List Event) : Prop where
  suffix : h <:+ h'
  started : ∀ op, .started op ∈ h' → .started op ∈ h

/-- A service that has left nothing in the record. -/
theorem Grows.refl (h : List Event) : Grows h h := ⟨List.suffix_rfl, fun _ => id⟩

/-- One service after another. -/
theorem Grows.trans {h' h'' : List Event} (h₁ : Grows h h') (h₂ : Grows h' h'') : Grows h h'' :=
  ⟨h₁.suffix.trans h₂.suffix, fun op hop => h₁.started op (h₂.started op hop)⟩

/-- One more event that starts nothing. -/
theorem Grows.cons {h' : List Event} {e : Event} (hg : Grows h h')
    (he : ∀ op, e ≠ .started op) : Grows h (e :: h') where
  suffix := hg.suffix.trans (List.suffix_cons e h')
  started := by
    intro op hop
    -- The new event starts no operation.
    rcases List.mem_cons.mp hop with hop | hop
    · exact absurd hop.symm (he op)
    · exact hg.started op hop

/-- What was no delivery is none afterwards. -/
theorem Grows.notDelivery {h' : List Event} [hh : NotDelivery h] (hg : Grows h h') :
    NotDelivery h' :=
  ⟨fun event correlationId hst => hh.not_started event correlationId (hg.started _ hst)⟩

/-- A service has taken the record `h` to `h'` and left nothing in hand; no diagnosis has
begun that is still under way. -/
structure Resumes (h h' : List Event) : Prop extends Grows h h' where
  idle : phase h' = .idle
  closed : diagnosing h = none → diagnosing h' = none

/-- A service that has left nothing in the record. -/
theorem Resumes.refl (hidle : phase h = .idle) : Resumes h h := ⟨.refl h, hidle, id⟩

/-- The next service begins as this one did. -/
theorem Resumes.between {h' : List Event} [hh : Between h] (hr : Resumes h h') : Between h' where
  toNotDelivery := hr.toGrows.notDelivery
  closed := hr.closed hh.closed

/-- One service after another. -/
theorem Resumes.trans {h' h'' : List Event} (h₁ : Resumes h h') (h₂ : Resumes h' h'') :
    Resumes h h'' :=
  ⟨h₁.toGrows.trans h₂.toGrows, h₂.idle, fun hh => h₂.closed (h₁.closed hh)⟩

/-- One more event that leaves nothing in hand. -/
theorem Resumes.cons {h' : List Event} {e : Event} (hr : Resumes h h')
    (hidle : (phase h').next e = .idle) (he : ∀ op, e ≠ .started op) (hd : e.diagnoses? = none) :
    Resumes h (e :: h') :=
  ⟨hr.toGrows.cons he, hidle, fun hh => diagnosing_cons_eq_none hd (hr.closed hh)⟩

section Cons

variable {h' : List Event} (hr : Resumes h h')
include hr

theorem Resumes.clock (now : Time) : Resumes h (.clock now :: h') :=
  -- With nothing in hand, only a commit that claims a case moves the phase.
  hr.cons (by rw [hr.idle]; rfl) (by simp) rfl

theorem Resumes.configured (settings : Settings) : Resumes h (.configured settings :: h') :=
  hr.cons (by rw [hr.idle]; rfl) (by simp) rfl

theorem Resumes.selected (q : Query) (r : q.Result)
    (hq : (Event.selected q r).diagnoses? = none) : Resumes h (.selected q r :: h') :=
  hr.cons (by rw [hr.idle]; rfl) (by simp) hq

theorem Resumes.recommended (context : PaymentRecoveryContext) (answer : Except Raised AIOutcome) :
    Resumes h (.recommended context answer :: h') :=
  hr.cons (by rw [hr.idle]; rfl) (by simp) rfl

theorem Resumes.refused (sts : List Stmt) (e : DbError) : Resumes h (.refused sts e :: h') :=
  hr.cons rfl (by simp) rfl

theorem Resumes.committed {sts : List Stmt} (hc : claimOf sts = none) :
    Resumes h (.committed sts :: h') :=
  hr.cons (by rw [hr.idle]; simp only [Phase.next, hc]) (by simp) rfl

end Cons

/-- A service has taken the record `h` to `h'` without a call or a link, and touched no case
outside its scope. -/
structure Proceeds (scope : Option Uuid) (h h' : List Event) : Prop
    extends Resumes h h' where
  adds : Adds (Event.Calm scope) h h'

/-- An event that says nothing of cases. -/
theorem Event.in_of_quiet {scope : Option Uuid} {e : Event} (hread : e.statusRead? = none)
    (hcases : e.cases = []) (hbegins : e.begins? = none) : e.In scope where
  statusRead := hread
  cases := by rw [hcases]; simp
  begins := hbegins

/-- An event that says nothing of cases, links and calls. -/
theorem Event.calm_of_quiet {scope : Option Uuid} {e : Event}
    (hread : e.statusRead? = none) (hcalls : e.callsProvider = false) (hlinks : e.links = [])
    (hcases : e.cases = []) (hbegins : e.begins? = none) : e.Calm scope :=
  ⟨Event.in_of_quiet hread hcases hbegins, hcalls, hlinks⟩

namespace Proceeds

variable {scope : Option Uuid} {h' h'' : List Event}

/-- A service that has left nothing in the record. -/
theorem refl (hidle : phase h = .idle) : Proceeds scope h h := ⟨.refl hidle, .refl h⟩

/-- One service after another, within one scope. -/
theorem trans (h₁ : Proceeds scope h h') (h₂ : Proceeds scope h' h'') : Proceeds scope h h'' :=
  ⟨h₁.toResumes.trans h₂.toResumes, h₁.adds.trans h₂.adds⟩

variable (hr : Proceeds scope h h')
include hr

theorem clock (now : Time) : Proceeds scope h (.clock now :: h') :=
  ⟨hr.toResumes.clock now, hr.adds.cons (Event.calm_of_quiet rfl rfl rfl rfl rfl)⟩

theorem configured (settings : Settings) : Proceeds scope h (.configured settings :: h') :=
  ⟨hr.toResumes.configured settings, hr.adds.cons (Event.calm_of_quiet rfl rfl rfl rfl rfl)⟩

/-- A select that begins no step and is none of the cases in a status. -/
theorem selected (q : Query) (r : q.Result)
    (hread : (Event.selected q r).statusRead? = none) (hbegins : (Event.selected q r).begins? = none) :
    Proceeds scope h (.selected q r :: h') where
  toResumes := hr.toResumes.selected q r (Event.diagnoses?_eq_none hbegins)
  adds := hr.adds.cons
    { statusRead := hread, cases := by simp [Event.cases], begins := hbegins
      calls := rfl, links := rfl }

theorem recommended (context : PaymentRecoveryContext) (answer : Except Raised AIOutcome) :
    Proceeds scope h (.recommended context answer :: h') :=
  ⟨hr.toResumes.recommended context answer,
    hr.adds.cons (Event.calm_of_quiet rfl rfl rfl rfl rfl)⟩

theorem refused (sts : List Stmt) (e : DbError) : Proceeds scope h (.refused sts e :: h') :=
  ⟨hr.toResumes.refused sts e, hr.adds.cons (Event.calm_of_quiet rfl rfl rfl rfl rfl)⟩

/-- A commit that records no link, within the scope. -/
theorem committed {sts : List Stmt} (hc : claimOf sts = none)
    (hlinks : sts.filterMap Stmt.linkInsert? = [])
    (hcases : ∀ id ∈ sts.filterMap Stmt.caseUpdated?, scope = some id) :
    Proceeds scope h (.committed sts :: h') where
  toResumes := hr.toResumes.committed hc
  adds := hr.adds.cons
    { statusRead := rfl, cases := hcases, begins := rfl, calls := rfl
      links := hlinks }

/-- The commit of one audit event. -/
theorem audited (entity : AuditEntity) (body : AuditBody) (actorType : ActorType)
    (correlationId : String) (now : Time) :
    Proceeds scope h (.committed [auditStmt entity body actorType correlationId now] :: h') :=
  hr.committed (claimOf_eq_none_of_forall (by simp [auditStmt, Stmt.caseUpdate?])) rfl
    (by simp [auditStmt, Stmt.caseUpdated?])

end Proceeds

/-- A service has raised `e` with the statements `p` flushed. -/
structure Fails (scope : Option Uuid) (h : List Event) (e : Raised) (p : List Stmt)
    (h' : List Event) : Prop extends Proceeds scope h h' where
  clean : Spares h p e

namespace Fails

variable {scope : Option Uuid} {h' : List Event}

/-- Nothing is flushed. -/
theorem of_nil {e : Raised} (hr : Proceeds scope h h') : Fails scope h e [] h' :=
  ⟨hr, fun _ _ _ => rfl⟩

/-- A stale version asks for nothing: the guard rolls back. -/
theorem stale (hr : Proceeds scope h h') (p : List Stmt) : Fails scope h .staleData p h' :=
  -- A stale flush is no domain error, and nothing is asked of it.
  ⟨hr, by simp [Spares]⟩

end Fails

/-- The error continuation of a service. -/
abbrev OnError (t : Tid) (scope : Option Uuid) (h : List Event) (F : List Fact)
    (K : Raised → Prog sig Outcome) : Prop :=
  ∀ e h' p' s', Fails scope h e p' h' → Here t p' h' F s' → Follows t (K e) s'

/-- Behind the concurrency guard, a stale flush arrives as a domain error. -/
theorem follows_guarded_stale {α : Type} {K : Except Raised α → Prog sig Outcome}
    (hs : Here t p h F s)
    (hk : ∀ m s', Here t [] h F s' →
      Follows t (K (.error (.recoverAI (.concurrentModification m)))) s') :
    Follows t (guarded K (.error .staleData)) s :=
  follows_rollback hs fun s hs => hk _ s hs

end RecoverAI
