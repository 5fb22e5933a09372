import RecoverAI.Protocol.Rules

/-!
# Following a service

The rules by which a service is shown to keep `Guarantee`. What is carried along
its text is `Here`: what the operation has flushed and not committed, its own
record, and a list of facts that no other operation can invalidate (`Fact`). All
three survive whatever the others do (`Here.rely`).

There is one rule for each command, stated for the command followed by an
arbitrary continuation, so that the rules chain along the text. A rule hands on
the state right after the command, of which new facts may be learned
(`Here.learn`).
-/

namespace RecoverAI

open Interleave

/-! ### Facts -/

/-- The facts an operation keeps from what it has read or written. -/
inductive Fact where
  | caseSeen (r : RecoveryCase)
  | paymentSeen (p : Payment)
  | attemptSeen (a : RecoveryAttempt)
  | attemptExists (id : Uuid)
  | customerExists (id : Uuid)
  | linkSeen (l : RecoveryPaymentRequest)
  | claimed (key : String)
  | outdated (r : RecoveryCase)
/-- What a fact says of the committed rows. -/

def Fact.Holds : Fact → Db → Prop
  | caseSeen r, db => db.CaseSeen r
  | paymentSeen p, db => db.PaymentSeen p
  | attemptSeen a, db => db.AttemptSeen a
  | attemptExists id, db => db.AttemptExists id
  | customerExists id, db => db.CustomerExists id
  | linkSeen l, db => db.LinkSeen l
  | claimed key, db => db.Claimed key
  | outdated r, db => db.Outdated r

/-- No commit makes a fact false. -/
theorem Fact.Holds.evolves {f : Fact} {db db' : Db} (h : f.Holds db) (he : db.Evolves db') :
    f.Holds db' := by
  -- One kind of fact at a time: each has survived evolution in the layer below.
  cases f with
  | caseSeen r => exact Db.CaseSeen.evolves h he
  | paymentSeen p => exact Db.PaymentSeen.evolves h he
  | attemptSeen a => exact Db.AttemptSeen.evolves h he
  | attemptExists id => exact Db.AttemptExists.evolves h he
  | customerExists id => exact Db.CustomerExists.evolves h he
  | linkSeen l => exact Db.LinkSeen.evolves h he
  | claimed key => exact Db.Claimed.evolves h he
  | outdated r => exact Db.Outdated.evolves h he

/-- All facts of a list hold. -/
def Facts (F : List Fact) (db : Db) : Prop := ∀ f ∈ F, f.Holds db

/-- One fact more. -/
theorem Facts.cons {f : Fact} {F : List Fact} {db : Db} (hf : f.Holds db) (hF : Facts F db) :
    Facts (f :: F) db := by
  intro g hg
  rcases List.mem_cons.mp hg with rfl | hg
  · exact hf
  · exact hF g hg

/-! ### Records -/

namespace State

variable {s : State} {t u : Tid} {e : Event}

@[simp] theorem own_emit_self : (s.emit t e).own t = e :: s.own t := by
  simp [own, emit]

@[simp] theorem emit_toTxns : (s.emit t e).toTxns = s.toTxns := rfl

@[simp] theorem withTxns_toTxns {x : Txns Db Stmt} : (s.withTxns x).toTxns = x := rfl

@[simp] theorem withTxns_history {x : Txns Db Stmt} : (s.withTxns x).history = s.history := rfl

@[simp] theorem withTxns_own {x : Txns Db Stmt} : (s.withTxns x).own t = s.own t := rfl

@[simp] theorem emit_history : (s.emit t e).history = (t, e) :: s.history := rfl

end State

/-! ### Moves -/

namespace Moves

variable {t u : Tid} {e : Option Event} {s s' : State}

/-- The event of a move is the newest of its own record. -/
theorem own_self (h : Moves t e s s') : s'.own t = e.toList ++ s.own t := by
  rw [State.own, State.own, h.history]
  cases e <;> simp

/-- It is in no other record. -/
theorem own_ne (h : Moves t e s s') (hu : u ≠ t) : s'.own u = s.own u := by
  -- The new event is one of the other operation, and is not in this record.
  have ht : ¬ t = u := fun he => hu he.symm
  rw [State.own, State.own, h.history]
  cases e <;> simp [ht]

/-- A move leaves the database layer consistent. -/
theorem consistent (h : Moves t e s s') (hs : s.Consistent) : s'.Consistent where
  isolated := h.isolated hs.isolated
  distinct := by
    rw [h.db]
    cases e with
    | none => exact hs.distinct
    | some e =>
      cases e with
      | committed sts =>
        -- Only a commit writes: what it writes has passed its checks when it was flushed.
        obtain rfl := h.committed sts rfl
        exact hs.distinct.applyAll (hs.isolated.checked t)
      | _ => exact hs.distinct

/-- The database evolves under the moves of all. -/
theorem evolves (h : Moves t e s s') (hs : s.Isolated) : s.db.Evolves s'.db := by
  rw [h.db]
  cases e with
  | none => exact .refl _
  | some e =>
    cases e with
    | committed sts =>
      obtain rfl := h.committed sts rfl
      exact .applyAll (hs.checked t)
    | _ => exact .refl _

end Moves

/-! ### The assertion -/

/-- Where operation `t` is: what it has flushed and not committed, its record, and
what it knows. -/
structure Here (t : Tid) (p : List Stmt) (h : List Event) (F : List Fact) (s : State) : Prop where
  consistent : s.Consistent
  pending : s.pendingOf t = p
  own : s.own t = h
  facts : Facts F s.db

namespace Here

variable {t : Tid} {p : List Stmt} {h : List Event} {F : List Fact} {s s' : State}

/-- The others cannot touch it. -/
theorem rely (hs : Here t p h F s) (hr : Rely Guarantee t s s') : Here t p h F s' := by
  refine hr.stable ?_ hs
  -- A step of another operation keeps the four parts, each for its own reason.
  rintro u hu a b ⟨e, hm, -⟩ ha
  exact
    { consistent := hm.consistent ha.consistent
      pending := (hm.others t (Ne.symm hu)).trans ha.pending
      own := (hm.own_ne (Ne.symm hu)).trans ha.own
      facts := fun f hf => (ha.facts f hf).evolves (hm.evolves ha.consistent.isolated) }

/-- A fact learned from the state at hand. -/
theorem learn (hs : Here t p h F s) {f : Fact} (hf : f.Holds s.db) : Here t p h (f :: F) s :=
  { hs with facts := hs.facts.cons hf }

/-- Several at once. -/
theorem learnAll (hs : Here t p h F s) {G : List Fact} (hG : Facts G s.db) :
    Here t p h (G ++ F) s :=
  { hs with facts := fun f hf => (List.mem_append.mp hf).elim (hG f) (hs.facts f) }

/-- Facts that are no longer needed. -/
theorem forget (hs : Here t p h F s) {G : List Fact} (hG : ∀ f ∈ G, f ∈ F) :
    Here t p h G s :=
  { hs with facts := fun f hf => hs.facts f (hG f hf) }

/-- The flushed statements, put another way. -/
theorem restate (hs : Here t p h F s) (p' : List Stmt) (hp : p = p') : Here t p' h F s := hp ▸ hs

/-- A fact that is known holds of the committed rows. -/
theorem fact (hs : Here t p h F s) {f : Fact} (hf : f ∈ F) : f.Holds s.db := hs.facts f hf

/-- What was flushed still passes its checks. -/
theorem checked (hs : Here t p h F s) : Store.checkAll p s.db = none :=
  hs.pending ▸ hs.consistent.isolated.checked t

/-- The operation sees the committed rows with its own statements on them. -/
theorem view_eq (hs : Here t p h F s) : s.view t = Store.applyAll p s.db := by
  rw [Txns.view, hs.pending]

end Here

/-! ### The rules of the commands -/

section Rules

variable {t : Tid} {p : List Stmt} {h : List Event} {F : List Fact} {s : State}

/-- In a cycle, a domain error finds nothing flushed. -/
def Spares (h : List Event) (p : List Stmt) (e : Raised) : Prop :=
  ∀ e', e = .recoverAI e' → h.any Event.startsCycle = true → p = []

/-- What is asked at a later record was asked at the earlier one. -/
theorem Spares.of_suffix {h' : List Event} {e : Raised} (hs : Spares h' p e) (hsub : h <:+ h') :
    Spares h p e := fun e' he hcycle =>
  hs e' he (List.any_eq_true.mpr
    (Exists.imp (fun _ hx => ⟨hsub.subset hx.1, hx.2⟩) (List.any_eq_true.mp hcycle)))

/-- What a remote party raises without spilling. -/
theorem Here.spares {i : Input} {e : Raised} (hs : Here t p h F s) (hi : s.spills t i = false)
    (hraises : ∀ e', e = .recoverAI e' → i.raisesRecoverAI = true) : Spares h p e := by
  intro e' he hcycle
  rw [State.spills, hraises e' he, hs.own, hcycle, hs.pending] at hi
  simpa using hi

/-- The obligation of an operation at its end: delivering the outcome is within its
guarantee. -/
abbrev Delivers (t : Tid) (r : Outcome) (s : State) : Prop :=
  Guarantee t s (machine.close t (some r) s)

/-- The operation `t` may run `x` from here. -/
abbrev Follows (t : Tid) (x : Prog sig Outcome) (s : State) : Prop :=
  Safe machine Guarantee t (Delivers t) x s

/-- A command that leaves an event and moves nothing else. -/
theorem moves_emit (s : State) (t : Tid) (e : Event) (he : ∀ sts, e ≠ .committed sts) :
    Moves t (some e) s (s.emit t e) where
  history := rfl
  db := by
    -- Only a commit would have moved the database.
    cases e with
    | committed sts => exact absurd rfl (he sts)
    | _ => rfl
  committed := fun sts h => absurd (Option.some.inj h) (he sts)
  others := fun _ _ => rfl
  isolated := id

/-- An event of the operation itself adds to its record only. -/
theorem Here.emit {e : Event} (hs : Here t p h F s) : Here t p (e :: h) F (s.emit t e) :=
  { consistent := ⟨hs.consistent.isolated, hs.consistent.distinct⟩
    pending := hs.pending
    own := by rw [State.own_emit_self, hs.own]
    facts := hs.facts }

/-- A command that only leaves an event: the common part of the rules below. -/
private theorem follows_emit {c : Cmd} {k : c.Reply → Prog sig Outcome} (hs : Here t p h F s)
    (hk : ∀ s', Here t p h F s' → ∀ i r s'', s'.spills t i = false →
      exec t c i s' = some (r, s'') →
      ∃ e, s'' = s'.emit t e ∧ (∀ sts, e ≠ .committed sts) ∧
        Permitted h s'.db e ∧ Follows t (k r) s'') :
    Follows t (.call c k) s := by
  intro s' hr i r s'' he
  -- What is known at the command is known after the steps the others take before it.
  obtain ⟨he, hspills⟩ := machine_exec_eq_some.mp he
  have hs' := hs.rely hr
  obtain ⟨e, rfl, hc, hp, hf⟩ := hk s' hs' i r s'' hspills he
  refine ⟨⟨some e, moves_emit s' t e hc, ?_⟩, hf⟩
  rintro e' he' -
  obtain rfl := Option.some.inj he'
  rw [hs'.own]
  exact hp

/-- **The rule of select.** What the operation has flushed so far must not show in
the answer. -/
theorem follows_select {q : Query} {K : Except Raised q.Result → Prog sig Outcome}
    (hs : Here t p h F s)
    (hp : ∀ db ids, q.eval (Store.applyAll p db) ids = q.eval db ids)
    (hk : ∀ ids s', Here t p (.selected q (q.eval s'.db ids) :: h) F s' →
      Follows t (K (.ok (q.eval s'.db ids))) s') :
    Follows t ((Service.select q).run >>= K) s := by
  refine follows_emit (c := .select q) (k := fun r => K (.ok r)) hs ?_
  intro s' hs' i r s'' hspills he
  cases i <;> try (cases he; done)
  case ranking ids =>
    cases he
    -- The operation reads through its own flushed statements, which do not show in this query.
    have hview : q.eval (s'.view t) ids = q.eval s'.db ids := by rw [hs'.view_eq, hp]
    refine ⟨.selected q _, rfl, by simp, ⟨ids, hview⟩, ?_⟩
    have hk := hk ids (s'.emit t (.selected q (q.eval (s'.view t) ids)))
    rw [State.emit_toTxns, ← hview] at hk
    exact hk hs'.emit

/-- The rule of the clock. -/
theorem follows_now {K : Except Raised Time → Prog sig Outcome} (hs : Here t p h F s)
    (hk : ∀ now s', Here t p (.clock now :: h) F s' → Follows t (K (.ok now)) s') :
    Follows t (Service.now.run >>= K) s := by
  refine follows_emit (c := .now) (k := fun r => K (.ok r)) hs ?_
  intro s' hs' i r s'' hspills he
  cases i <;> try (cases he; done)
  case time now =>
    cases he
    exact ⟨.clock r, rfl, by simp, trivial, hk r _ hs'.emit⟩

/-- The rule of the settings. -/
theorem follows_getSettings {K : Except Raised Settings → Prog sig Outcome} (hs : Here t p h F s)
    (hk : ∀ settings s', Here t p (.configured settings :: h) F s' →
      Follows t (K (.ok settings)) s') :
    Follows t (Service.getSettings.run >>= K) s := by
  refine follows_emit (c := .getSettings) (k := fun r => K (.ok r)) hs ?_
  intro s' hs' i r s'' hspills he
  cases i <;> try (cases he; done)
  case settings settings =>
    cases he
    exact ⟨.configured r, rfl, by simp, trivial, hk r _ hs'.emit⟩

/-- The rule of the AI: a domain error it raises finds nothing flushed in a cycle. -/
theorem follows_getRecommendation {context : PaymentRecoveryContext}
    {K : Except Raised (Except Raised AIOutcome) → Prog sig Outcome} (hs : Here t p h F s)
    (hk : ∀ answer s', (∀ e, answer = .error e → Spares h p e) →
      Here t p (.recommended context answer :: h) F s' → Follows t (K (.ok answer)) s') :
    Follows t ((Service.perform (.getRecommendation context)).run >>= K) s := by
  refine follows_emit (c := .getRecommendation context) (k := fun r => K (.ok r)) hs ?_
  intro s' hs' i r s'' hspills he
  cases i <;> try (cases he; done)
  case recommendation answer =>
    cases he
    refine ⟨.recommended context r, rfl, by simp, trivial, hk r _ (fun e he => ?_) hs'.emit⟩
    refine hs'.spares hspills fun e' he' => ?_
    rw [he, he']
    rfl

/-- **The rule of the call**: everything `Called` asks for has to be in place. -/
theorem follows_createPaymentLink {caseId : Uuid} {request : CreatePaymentLinkRequest}
    {K : Except Raised (Except ProviderException PaymentLinkSnapshot) → Prog sig Outcome}
    (hs : Here t p h F s)
    (hcalled : ∀ db, Facts F db → ∃ x attempt, Called h db caseId request x attempt)
    (hk : ∀ made answer s', answersTruly made answer →
      Here t p (.created caseId request made answer :: h) F s' → Follows t (K (.ok answer)) s') :
    Follows t ((Service.perform (.createPaymentLink caseId request)).run >>= K) s := by
  refine follows_emit (c := .createPaymentLink caseId request) (k := fun r => K (.ok r)) hs ?_
  intro s' hs' i r s'' hspills he
  cases i <;> try (cases he)
  case created made answer =>
    -- The machine takes an answer only if it is true of the link really made.
    simp only [exec] at he
    split at he
    · next htruly =>
      cases he
      exact ⟨.created caseId request made r, rfl, by simp, ⟨htruly, hcalled _ hs'.facts⟩,
        hk made r _ htruly hs'.emit⟩
    · cases he

/-- The rule of the search, which is made after an ambiguous answer only. -/
theorem follows_findPaymentLinkByReference {referenceId : String}
    {K : Except Raised (Except ProviderException (Option PaymentLinkSnapshot)) →
      Prog sig Outcome}
    (hs : Here t p h F s)
    (hcalled : ∃ c a made e, phase h = .called c a made (.error (.paymentProvider e)) ∧
      e.kind = .ambiguous)
    (hk : ∀ answer s', (∀ e, answer = .error (.other e) → Spares h p e) →
      Here t p (.found referenceId answer :: h) F s' → Follows t (K (.ok answer)) s') :
    Follows t ((Service.perform (.findPaymentLinkByReference referenceId)).run >>= K) s := by
  refine follows_emit (c := .findPaymentLinkByReference referenceId) (k := fun r => K (.ok r))
    hs ?_
  intro s' hs' i r s'' hspills he
  cases i <;> try (cases he; done)
  case found answer =>
    cases he
    refine ⟨.found referenceId r, rfl, by simp, hcalled, hk r _ (fun e he => ?_) hs'.emit⟩
    refine hs'.spares hspills fun e' he' => ?_
    rw [he, he']
    rfl

/-- The rule of a new id. -/
theorem follows_uuid4 {K : Except Raised Uuid → Prog sig Outcome} (hs : Here t p h F s)
    (hk : ∀ id s', Here t p h F s' → Follows t (K (.ok id)) s') :
    Follows t (Service.uuid4.run >>= K) s := by
  intro s' hr i r s'' he
  have hs' := hs.rely hr
  replace he := (machine_exec_eq_some.mp he).1
  cases i <;> try (cases he; done)
  case uuid id =>
    cases he
    -- Drawing an id leaves no event.
    refine ⟨⟨none, ⟨rfl, rfl, by simp, fun _ _ => rfl, id⟩, by simp⟩, hk r _ hs'⟩

/-- The rule of rollback: nothing is flushed any more. -/
theorem follows_rollback {K : Except Raised Unit → Prog sig Outcome} (hs : Here t p h F s)
    (hk : ∀ s', Here t [] h F s' → Follows t (K (.ok ())) s') :
    Follows t (Service.rollback.run >>= K) s := by
  intro s' hr i r s'' he
  have hs' := hs.rely hr
  replace he := (machine_exec_eq_some.mp he).1
  cases i <;> try (cases he; done)
  case go =>
    cases he
    -- A rollback drops what the operation has flushed, and no event tells of it.
    refine ⟨⟨none, ⟨rfl, rfl, by simp, fun u hu => ?_, fun hi => hi.rollback t⟩, by simp⟩,
      hk _ ⟨⟨hs'.consistent.isolated.rollback t, hs'.consistent.distinct⟩, ?_, hs'.own, hs'.facts⟩⟩
    · exact Txns.rollback_pendingOf_ne hu
    · exact Txns.rollback_pendingOf _ _

/-- The exception a failed flush raises. -/
def DbError.raised : DbError → Raised
  | .stale => .staleData
  | .integrity => .integrityError

/-- The rule of flush: either the statements are added to what is flushed, or the transaction is
gone. -/
theorem follows_flush {sts : List Stmt} {K : Except Raised Unit → Prog sig Outcome}
    (hs : Here t p h F s)
    (hk : ∀ s', Here t (p ++ sts) h F s' → Follows t (K (.ok ())) s')
    (hrefused : ∀ db e, Facts F db → Store.checkAll p db = none →
      Store.checkAll sts (Store.applyAll p db) = some e → Refused h db sts e)
    (herr : ∀ e s', Store.checkAll p s'.db = none →
      Store.checkAll sts (Store.applyAll p s'.db) = some e →
      Here t [] (.refused sts e :: h) F s' → Follows t (K (.error e.raised)) s') :
    Follows t ((Service.flush sts).run >>= K) s := by
  intro s' hr i r s'' he
  -- Between two commands the others may have committed.
  have hs' := hs.rely hr
  replace he := (machine_exec_eq_some.mp he).1
  cases i <;> try (cases he)
  case go =>
    simp only [exec] at he
    split at he
    · next x hx =>
      cases he
      obtain ⟨hb, hc⟩ := Txns.flush_cases hx
      -- The statements pass their checks on the view of the operation and join what is pending.
      obtain ⟨e, hr, -⟩ | ⟨-, hc, rfl⟩ := hc
      · cases hr
      · refine ⟨⟨none, ⟨rfl, rfl, by simp, fun u hu => ?_, fun hi => hi.enlist hb hc⟩,
          by simp⟩, hk _ ⟨⟨hs'.consistent.isolated.enlist hb hc, hs'.consistent.distinct⟩, ?_,
            hs'.own, hs'.facts⟩⟩
        · exact Txns.enlist_pendingOf_ne hu
        · rw [State.withTxns_toTxns, Txns.enlist_pendingOf, hs'.pending]
    · next e x hx =>
      cases he
      obtain ⟨hb, hc⟩ := Txns.flush_cases hx
      -- They are refused: the whole transaction is gone, and the refusal stands in the record.
      obtain ⟨e, hr, hc, rfl⟩ | ⟨hr, -⟩ := hc
      · cases hr
        refine ⟨⟨some (.refused sts e), ⟨rfl, rfl, by simp, fun u hu => ?_,
          fun hi => hi.rollback t⟩, fun e' he' _ => ?_⟩, ?_⟩
        · exact Txns.rollback_pendingOf_ne hu
        · cases he'
          rw [hs'.own]
          exact hrefused _ e hs'.facts hs'.checked (hs'.view_eq ▸ hc)
        · have hend : Here t [] (.refused sts e :: h) F
              ((s'.withTxns (s'.toTxns.rollback t)).emit t (.refused sts e)) :=
            ⟨⟨hs'.consistent.isolated.rollback t, hs'.consistent.distinct⟩,
              Txns.rollback_pendingOf _ _,
              by rw [State.own_emit_self, State.withTxns_own, hs'.own], hs'.facts⟩
          have herr := herr e ((s'.withTxns (s'.toTxns.rollback t)).emit t (.refused sts e))
            hs'.checked (hs'.view_eq ▸ hc) hend
          cases e <;> exact herr
      · cases hr
    · cases he

/-- A flush that cannot fail. -/
theorem follows_flush_of_checked {sts : List Stmt} {K : Except Raised Unit → Prog sig Outcome}
    (hs : Here t p h F s)
    (hok : ∀ db, Facts F db → Store.checkAll p db = none →
      Store.checkAll sts (Store.applyAll p db) = none)
    (hk : ∀ s', Here t (p ++ sts) h F s' → Follows t (K (.ok ())) s') :
    Follows t ((Service.flush sts).run >>= K) s := by
  refine follows_flush hs hk (fun db e hF hp hc => ?_) fun e s hp hc hs => ?_
  · -- The checks are made on the view at the moment of the flush, whatever was committed before it.
    rw [hok db hF hp] at hc; cases hc
  · rw [hok s.db hs.facts hp] at hc; cases hc

/-- **The rule of commit**: what was flushed has to be a transaction of the
protocol. -/
theorem follows_commit {K : Except Raised Unit → Prog sig Outcome} (hs : Here t p h F s)
    (htxn : ∀ db, Facts F db → Store.checkAll p db = none → Txn h db p)
    (hk : ∀ db s', Facts F db → Store.checkAll p db = none → s'.db = Store.applyAll p db →
      Here t [] (.committed p :: h) F s' → Follows t (K (.ok ())) s') :
    Follows t (Service.commit.run >>= K) s := by
  intro s' hr i r s'' he
  have hs' := hs.rely hr
  replace he := (machine_exec_eq_some.mp he).1
  cases i <;> try (cases he; done)
  case go =>
    cases he
    have hp := hs'.pending
    have hm : Moves t (some (.committed (s'.pendingOf t))) s'
        ((s'.withTxns (s'.toTxns.commit t)).emit t (.committed (s'.pendingOf t))) := by
      refine ⟨rfl, rfl, fun sts h => ?_, fun u hu => ?_, fun hi => hi.commit t⟩
      · cases h; rfl
      · exact Txns.commit_pendingOf_ne hu
    refine ⟨⟨_, hm, fun e' he' _ => ?_⟩, ?_⟩
    · cases he'
      rw [hs'.own, hp]
      exact htxn _ hs'.facts hs'.checked
    · rw [hp] at hm ⊢
      -- The facts are about committed rows, and these have evolved by the commit itself.
      have hev := hm.evolves hs'.consistent.isolated
      refine hk s'.db _ hs'.facts hs'.checked ?_ ⟨hm.consistent hs'.consistent, ?_, ?_, ?_⟩
      · exact hm.db
      · exact Txns.commit_pendingOf _ _
      · rw [hm.own_self, hs'.own]; rfl
      · exact fun f hf => (hs'.facts f hf).evolves hev

/-- **The rule of the end.** -/
theorem follows_done {r : Outcome} (hs : Here t p h F s)
    (hend : ∀ db, Facts F db → Ended h db r) : Follows t (.done r) s := by
  intro s' hr
  have hs' := hs.rely hr
  -- The end leaves its event and drops what is not committed.
  refine ⟨some (.ended (some r)), ⟨rfl, rfl, by simp, fun u hu => ?_,
    fun hi => hi.rollback t⟩, fun e' he' _ => ?_⟩
  · exact Txns.rollback_pendingOf_ne hu
  · cases he'
    rw [hs'.own]
    exact hend _ hs'.facts

end Rules

end RecoverAI
