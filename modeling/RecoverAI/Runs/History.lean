import RecoverAI.Refinement.System
import RecoverAI.Protocol.Effects

/-!
# Runs and their records

Every command of a run leaves at most one event, so a run is known by its record
(`State.history`). `History.replay` is the database a record leads to: only commits
count. `Extends P H H'` says that `H'` continues `H` by events that are permitted where
they stand, with checked commits, each satisfying `P`; a record that continues the
empty one is `Lawful`.

`extends_of_reachesVia` is the bridge from the machine: a run whose steps satisfy a
condition extends its record by events that satisfy it. Everything further is induction
over records.
-/

namespace RecoverAI

open Interleave

/-- The record of a run, newest first. -/
abbrev History := List (Tid × Event)

namespace History

/-- The database a record leads to. -/
def replay : History → Db
  | [] => Db.empty
  | (_, e) :: H => e.applyTo (replay H)

/-- The events of one operation, newest first. -/
def own (H : History) (t : Tid) : List Event := (H.filter fun p => p.1 = t).map Prod.snd

variable {H : History} {t u : Tid} {e : Event}

@[simp] theorem own_nil : own [] t = [] := rfl

@[simp] theorem own_cons_self : own ((t, e) :: H) t = e :: own H t := by simp [own]

/-- An event is in the part of its own operation alone. -/
theorem own_cons_ne (h : u ≠ t) : own ((t, e) :: H) u = own H u := by
  have ht : ¬ t = u := fun he => h he.symm
  simp [own, ht]

/-- An operation's events stand in the record in their own order. -/
theorem split_of_own {es es' : List Event} (h : own H t = es ++ e :: es') :
    -- By induction on the record: an event of another operation goes in front of either part.
    ∃ newer older : History, H = newer ++ (t, e) :: older ∧ own older t = es' := by
  induction H generalizing es with
  | nil => simp at h
  | cons p H ih =>
    obtain ⟨u, e'⟩ := p
    by_cases hu : t = u
    · subst hu
      rw [own_cons_self] at h
      cases es with
      | nil =>
        obtain ⟨rfl, hrest⟩ := List.cons.inj h
        exact ⟨[], H, rfl, hrest⟩
      | cons e'' es =>
        obtain ⟨newer, older, rfl, ho⟩ := ih (List.cons.inj h).2
        exact ⟨(t, e') :: newer, older, rfl, ho⟩
    · rw [own_cons_ne hu] at h
      obtain ⟨newer, older, rfl, ho⟩ := ih h
      exact ⟨(u, e') :: newer, older, rfl, ho⟩

/-- The part of a longer record. -/
theorem own_append (H H' : History) (t : Tid) : own (H ++ H') t = own H t ++ own H' t := by
  simp [own]

/-- What an operation has left is in the record under its name. -/
theorem mem_own : e ∈ own H t ↔ (t, e) ∈ H := by simp [own]

@[simp] theorem replay_nil : replay [] = Db.empty := rfl

@[simp] theorem replay_cons : replay ((t, e) :: H) = e.applyTo (replay H) := rfl

end History

@[simp] theorem Event.applyTo_committed (sts : List Stmt) (db : Db) :
    (Event.committed sts).applyTo db = Store.applyAll sts db := rfl

/-- Any other event leaves the database alone. -/
theorem Event.applyTo_of_ne {e : Event} {db : Db} (h : ∀ sts, e ≠ .committed sts) :
    e.applyTo db = db := by
  cases e with
  | committed sts => exact absurd rfl (h sts)
  | _ => rfl

/-! ### Lawful records -/

/-- `H'` continues `H` by permitted events that satisfy `P`. -/
inductive Extends (P : History → Tid → Event → Prop) (H : History) : History → Prop
  | refl : Extends P H H
  | cons {H' : History} {t : Tid} {e : Event} (before : Extends P H H')
      (permitted : Permitted (H'.own t) H'.replay e)
      (checked : ∀ sts, e = .committed sts → Store.checkAll sts H'.replay = none)
      (cond : P H' t e) : Extends P H ((t, e) :: H')

/-- A record of permitted events. -/
abbrev Lawful (H : History) : Prop := Extends (fun _ _ _ => True) [] H

namespace Extends

variable {P Q : History → Tid → Event → Prop} {H H' H'' : History}

/-- A weaker condition on the events. -/
theorem mono (hPQ : ∀ H t e, P H t e → Q H t e) (h : Extends P H H') : Extends Q H H' := by
  induction h with
  | refl => exact .refl
  | cons _ hp hc hcond ih => exact .cons ih hp hc (hPQ _ _ _ hcond)

/-- One record continues another. -/
theorem trans (h : Extends P H H') (h' : Extends P H' H'') : Extends P H H'' := by
  induction h' with
  | refl => exact h
  | cons _ hp hc hcond ih => exact .cons ih hp hc hcond

/-- What continues a lawful record is lawful. -/
theorem lawful (h : Extends P H H') (hH : Lawful H) : Lawful H' :=
  hH.trans (h.mono fun _ _ _ _ => trivial)

/-- Nothing is taken out of a record. -/
theorem suffix (h : Extends P H H') : H <:+ H' := by
  induction h with
  | refl => exact List.suffix_rfl
  | cons _ _ _ _ ih => exact ih.trans (List.suffix_cons _ _)

/-- The database evolves along a record. -/
theorem evolves (h : Extends P H H') : H.replay.Evolves H'.replay := by
  induction h with
  | refl => exact .refl _
  | @cons H' t e _ _ hc _ ih =>
    -- Only a commit writes, and what it writes has passed its checks.
    cases e with
    | committed sts => exact ih.trans (.applyAll (hc sts rfl))
    | _ => exact ih

/-- Every earlier part of a record from the beginning is one. -/
theorem of_append {newer older : History} (h : Extends P [] (newer ++ older)) :
    Extends P [] older := by
  induction newer with
  | nil => exact h
  | cons p newer ih =>
    refine ih ?_
    rw [List.cons_append] at h
    -- The last event goes; what is left is a record by the same rule.
    cases h with
    | cons before => exact before

end Extends

namespace Lawful

variable {H newer older : History} {t : Tid} {e : Event}

/-- What a lawful record looks like at its last event. -/
theorem cons_inv (h : Lawful ((t, e) :: H)) : Lawful H ∧ Permitted (H.own t) H.replay e ∧
    ∀ sts, e = .committed sts → Store.checkAll sts H.replay = none := by
  cases h with
  | cons before permitted checked cond => exact ⟨before, permitted, checked⟩

/-- **The rule of lawful records**: each event extends one lawful record to another. -/
theorem induction {motive : (H : History) → Lawful H → Prop} (refl : motive [] .refl)
    (cons : ∀ {H : History} {t : Tid} {e : Event} (before : Lawful H)
      (lawful : Lawful ((t, e) :: H)), motive H before → motive ((t, e) :: H) lawful)
    {H : History} (h : Lawful H) : motive H h := by
  induction h with
  | refl => exact refl
  | cons before permitted checked _ ih =>
    exact cons before (.cons before permitted checked trivial) ih

/-- Every earlier part of a lawful record is one. -/
theorem of_append (h : Lawful (newer ++ older)) : Lawful older := by
  induction newer with
  | nil => exact h
  | cons p newer ih => exact ih h.cons_inv.1

/-- A record continues each of its earlier parts. -/
theorem extends_of_append (h : Lawful (newer ++ older)) :
    Extends (fun _ _ _ => True) older (newer ++ older) := by
  induction newer with
  | nil => exact .refl
  | cons p newer ih =>
    obtain ⟨hH, hp, hc⟩ := h.cons_inv
    exact .cons (ih hH) hp hc trivial

/-- The database evolves from any earlier part. -/
theorem evolves_of_append (h : Lawful (newer ++ older)) :
    (History.replay older).Evolves (History.replay (newer ++ older)) :=
  h.extends_of_append.evolves

/-- The database evolves with each event. -/
theorem evolves_cons (h : Lawful ((t, e) :: H)) : H.replay.Evolves (History.replay ((t, e) :: H)) := by
  rw [← List.singleton_append] at h ⊢
  exact h.evolves_of_append

/-- A record continues what stands before one of its events. -/
theorem extends_of_split {p : Tid × Event} (h : Lawful (newer ++ p :: older)) :
    Extends (fun _ _ _ => True) older (newer ++ p :: older) := by
  rw [← List.singleton_append, ← List.append_assoc] at h ⊢
  exact h.extends_of_append

/-- The database evolves from where an event stands. -/
theorem evolves_of_split {p : Tid × Event} (h : Lawful (newer ++ p :: older)) :
    (History.replay older).Evolves (History.replay (newer ++ p :: older)) :=
  h.extends_of_split.evolves

/-- Unique columns stay unique. -/
theorem distinct (h : Lawful H) : H.replay.Distinct := by
  induction h with
  | refl => exact .empty
  | @cons H t e _ _ hc _ ih =>
    cases e with
    | committed sts => exact ih.applyAll (hc sts rfl)
    | _ => exact ih

/-- What a commit of a lawful record does to the cases. -/
theorem caseEffect {sts : List Stmt} (h : Lawful ((t, .committed sts) :: H)) :
    CaseEffect (H.own t) H.replay sts :=
  let ⟨_, hp, hc⟩ := h.cons_inv
  Txn.caseEffect hp (hc sts rfl)

end Lawful

/-- The rule for records whose events satisfy `P`. -/
theorem Extends.induction {P : History → Tid → Event → Prop}
    {motive : (H : History) → Extends P [] H → Prop} (refl : motive [] .refl)
    (cons : ∀ {H : History} {t : Tid} {e : Event} (before : Extends P [] H)
      (_ : Lawful ((t, e) :: H)) (_ : P H t e) (h : Extends P [] ((t, e) :: H)),
      motive H before → motive ((t, e) :: H) h)
    {H : History} (h : Extends P [] H) : motive H h := by
  induction h with
  | refl => exact refl
  | cons before permitted checked cond ih =>
    exact cons before (.cons (before.mono fun _ _ _ _ => trivial) permitted checked trivial) cond
      (.cons before permitted checked cond) ih

/-- **Where an event of a record stands**: the record splits there. -/
theorem Lawful.split {H : History} {t : Tid} {e : Event} (h : Lawful H) (he : (t, e) ∈ H) :
    ∃ newer older : History, H = newer ++ (t, e) :: older ∧ Lawful older ∧
      Permitted (History.own older t) (History.replay older) e ∧
      ∀ sts, e = .committed sts → Store.checkAll sts (History.replay older) = none := by
  obtain ⟨newer, older, rfl⟩ := List.append_of_mem he
  exact ⟨newer, older, rfl, h.of_append.cons_inv⟩

/-- What an event of the record satisfied. -/
theorem Extends.split {P : History → Tid → Event → Prop} {H : History} {t : Tid} {e : Event}
    (h : Extends P [] H) (he : (t, e) ∈ H) : ∃ newer older : History, H = newer ++ (t, e) :: older ∧
      Extends P [] older ∧ Permitted (History.own older t) (History.replay older) e ∧
      P older t e := by
  induction h with
  | refl => cases he
  | @cons H u e' before permitted checked cond ih =>
    rcases List.mem_cons.mp he with he | he
    · cases he
      exact ⟨[], H, rfl, before, permitted, cond⟩
    · obtain ⟨newer, older, rfl, h⟩ := ih he
      exact ⟨(u, e') :: newer, older, rfl, h⟩

/-- An operation starts before anything else it does. -/
theorem Lawful.started_mem {newer older : History} {t : Tid} {op : Op} {e : Event}
    (h : Lawful (newer ++ (t, e) :: older)) (he : e ≠ .started op)
    (hst : (t, .started op) ∈ newer ++ (t, e) :: older) : (t, .started op) ∈ older := by
  rcases List.mem_append.mp hst with hst | hst
  · -- Were the start newer than the event, the operation would have left something before it.
    obtain ⟨newer', middle, hsplit⟩ := List.append_of_mem hst
    rw [hsplit, List.append_assoc, List.cons_append] at h
    have hfirst : History.own (middle ++ (t, e) :: older) t = [] := h.of_append.cons_inv.2.1
    rw [History.own_append, History.own_cons_self, List.append_eq_nil_iff] at hfirst
    cases hfirst.2
  · rcases List.mem_cons.mp hst with hst | hst
    · exact absurd (Prod.mk.inj hst).2.symm he
    · exact hst

/-- The event is a call of the provider on behalf of a case. -/
def Event.isCall (caseId : Uuid) : Event → Bool
  | .created caseId' _ _ _ => caseId' = caseId
  | _ => false

/-- Such an event is the call of `create_payment_link`. -/
theorem Event.exists_of_isCall {e : Event} {caseId : Uuid} (h : e.isCall caseId) :
    ∃ request made answer, e = .created caseId request made answer := by
  cases e with
  | created caseId' request made answer =>
    obtain rfl : caseId' = caseId := by simpa [Event.isCall] using h
    exact ⟨request, made, answer, rfl⟩
  | _ => cases h

/-- The operation has returned. -/
def Event.isReturn : Event → Bool
  | .ended (some (.ok _)) => true
  | _ => false

/-- Such an event carries a response. -/
theorem Event.exists_of_isReturn {e : Event} (h : e.isReturn = true) :
    ∃ response, e = .ended (some (.ok response)) := by
  unfold isReturn at h
  split at h
  · next response => exact ⟨response, rfl⟩
  · cases h

/-- The event starts this operation. -/
def Event.starts (op : Op) : Event → Bool
  | .started op' => op' = op
  | _ => false

/-- Such an event is the start of the operation. -/
theorem Event.eq_of_starts {e : Event} {op : Op} (h : e.starts op = true) : e = .started op := by
  unfold starts at h
  split at h
  · exact congrArg Event.started (of_decide_eq_true h)
  · cases h

/-- A start that a search of the record finds. -/
theorem History.started_mem_of_any {H : History} {t : Tid} {op : Op}
    (h : (H.any fun p => p.1 = t && p.2.starts op) = true) : (t, .started op) ∈ H := by
  obtain ⟨⟨u, e⟩, hmem, he⟩ := List.any_eq_true.mp h
  rw [Bool.and_eq_true, decide_eq_true_eq] at he
  obtain ⟨rfl, he⟩ := he
  have heq : e = .started op := Event.eq_of_starts he
  rwa [heq] at hmem

/-- The operation has ended by itself. -/
def Event.isOutcome : Event → Bool
  | .ended (some _) => true
  | _ => false

/-- Such an event carries an outcome. -/
theorem Event.exists_of_isOutcome {e : Event} (h : e.isOutcome = true) :
    ∃ outcome, e = .ended (some outcome) := by
  cases e with
  | ended outcome =>
    cases outcome with
    | none => cases h
    | some outcome => exact ⟨outcome, rfl⟩
  | _ => cases h

/-- An end that a search of the record finds. -/
theorem History.ended_mem_of_any {H : History} {t : Tid}
    (h : (H.any fun p => p.1 = t && p.2.isOutcome) = true) :
    ∃ outcome, (t, .ended (some outcome)) ∈ H := by
  obtain ⟨⟨u, e⟩, hmem, he⟩ := List.any_eq_true.mp h
  rw [Bool.and_eq_true, decide_eq_true_eq] at he
  obtain ⟨rfl, he⟩ := he
  obtain ⟨outcome, rfl⟩ := Event.exists_of_isOutcome he
  exact ⟨outcome, hmem⟩

/-! ### What an action is about to do -/

namespace World

/-- The transaction an action commits. -/
def commits? (w : World) : Action → Option (Tid × List Stmt)
  | .run t _ =>
    match w.prog? t with
    | some (.call Cmd.commit _) => some (t, w.shared.pendingOf t)
    | _ => none
  | _ => none

/-- The statements an action flushes. -/
def flushes? (w : World) : Action → Option (Tid × List Stmt)
  | .run t _ =>
    match w.prog? t with
    | some (.call (Cmd.flush sts) _) => some (t, sts)
    | _ => none
  | _ => none

/-- The query an action selects. -/
def selects? (w : World) : Action → Option (Tid × Query)
  | .run t _ =>
    match w.prog? t with
    | some (.call (Cmd.select query) _) => some (t, query)
    | _ => none
  | _ => none

end World

section Exec

variable {t : Tid} {c : Cmd} {i : Input} {s s' : State} {r : c.Reply}

/-- What a command leaves in the record, given its input. -/
inductive Emits (s : State) (t : Tid) : Cmd → Input → Event → Prop where
  | selected (query : Query) (ids : List Uuid) :
      Emits s t (.select query) (.ranking ids) (.selected query (query.eval (s.view t) ids))
  | refused (sts : List Stmt) (e : DbError) (failed : Store.checkAll sts (s.view t) = some e) :
      Emits s t (.flush sts) .go (.refused sts e)
  | committed : Emits s t .commit .go (.committed (s.pendingOf t))
  | clock (now : Time) : Emits s t .now (.time now) (.clock now)
  | configured (settings : Settings) :
      Emits s t .getSettings (.settings settings) (.configured settings)
  | recommended (context : PaymentRecoveryContext) (answer : Except Raised AIOutcome) :
      Emits s t (.getRecommendation context) (.recommendation answer) (.recommended context answer)
  | created (caseId : Uuid) (request : CreatePaymentLinkRequest)
      (made : Option PaymentLinkSnapshot)
      (answer : Except ProviderException PaymentLinkSnapshot) :
      Emits s t (.createPaymentLink caseId request) (.created made answer)
        (.created caseId request made answer)
  | found (referenceId : String)
      (answer : Except ProviderException (Option PaymentLinkSnapshot)) :
      Emits s t (.findPaymentLinkByReference referenceId) (.found answer)
        (.found referenceId answer)

/-- The record after a command. -/
theorem history_of_exec (he : exec t c i s = some (r, s')) :
    s'.history = s.history ∨ ∃ e, Emits s t c i e ∧ s'.history = (t, e) :: s.history := by
  cases c <;> cases i <;> simp only [exec] at he <;> try cases he
  case select.ranking query ids => exact .inr ⟨_, .selected query ids, rfl⟩
  case flush.go sts =>
    split at he <;> cases he
    · -- A flush that goes through leaves nothing in the record.
      exact .inl rfl
    · next e x hx =>
      obtain ⟨-, ⟨e', he', hc, -⟩ | ⟨he', -⟩⟩ := Txns.flush_cases hx <;> cases he'
      exact .inr ⟨_, .refused sts e hc, rfl⟩
  case commit.go => exact .inr ⟨_, .committed, rfl⟩
  case rollback.go => exact .inl rfl
  case now.time => exact .inr ⟨_, .clock _, rfl⟩
  case uuid4.uuid => exact .inl rfl
  case getSettings.settings => exact .inr ⟨_, .configured _, rfl⟩
  case getRecommendation.recommendation => exact .inr ⟨_, .recommended _ _, rfl⟩
  case createPaymentLink.created =>
    split at he <;> cases he
    exact .inr ⟨_, .created _ _ _ _, rfl⟩
  case findPaymentLinkByReference.found => exact .inr ⟨_, .found _ _, rfl⟩

/-- A command that adds to the record adds one event, under the name of its operation. -/
theorem emits_of_exec (he : exec t c i s = some (r, s')) {u : Tid} {e : Event}
    (hh : s'.history = (u, e) :: s.history) : u = t ∧ Emits s t c i e := by
  rcases history_of_exec he with hsame | ⟨e', hemits, hcons⟩
  · -- A command that leaves nothing does not make the record longer.
    exact absurd (hsame.symm.trans hh) (List.cons_ne_self _ _).symm
  · obtain ⟨hp, -⟩ := List.cons.inj (hcons.symm.trans hh)
    obtain ⟨rfl, rfl⟩ := Prod.mk.inj hp
    exact ⟨rfl, hemits⟩

/-- What waits for a commit after a command waited before it, or was flushed by it. -/
theorem pending_of_exec (he : exec t c i s = some (r, s')) {p : Tid × Stmt}
    (hp : p ∈ s'.pending) : p ∈ s.pending ∨ ∃ sts, c = .flush sts ∧ p.1 = t ∧ p.2 ∈ sts := by
  have hrest : ∀ {q : Tid × Stmt}, q ∈ s.toTxns.others t → q ∈ s.pending := fun hq =>
    (Txns.mem_others.mp hq).1
  cases c <;> cases i <;> simp only [exec] at he <;> try cases he
  case flush.go sts =>
    split at he <;> cases he
    · next x hx =>
      obtain ⟨-, ⟨e, he, -⟩ | ⟨-, -, rfl⟩⟩ := Txns.flush_cases hx
      · cases he
      -- It waited before, or is one of the statements flushed.
      rcases List.mem_append.mp hp with hp | hp
      · exact .inl hp
      · obtain ⟨st, hst, rfl⟩ := List.mem_map.mp hp
        exact .inr ⟨sts, rfl, rfl, hst⟩
    · next e x hx =>
      obtain ⟨-, ⟨-, -, -, rfl⟩ | ⟨he, -⟩⟩ := Txns.flush_cases hx
      · -- A refusal takes out what the operation itself had waiting.
        exact .inl (hrest hp)
      · cases he
  case commit.go => exact .inl (hrest hp)
  case rollback.go => exact .inl (hrest hp)
  case createPaymentLink.created =>
    split at he <;> cases he
    exact .inl hp
  all_goals exact .inl hp

/-- Only a commit leaves a transaction in the record. -/
theorem committed_of_exec (he : exec t c i s = some (r, s')) {sts : List Stmt}
    (hh : s'.history = (t, .committed sts) :: s.history) : c = .commit ∧ sts = s.pendingOf t := by
  obtain ⟨-, hemits⟩ := emits_of_exec he hh
  cases hemits
  exact ⟨rfl, rfl⟩

/-- Only a flush that fails leaves a refusal in the record. -/
theorem refused_of_exec (he : exec t c i s = some (r, s')) {sts : List Stmt} {e : DbError}
    (hh : s'.history = (t, .refused sts e) :: s.history) :
    c = .flush sts ∧ Store.checkAll sts (s.view t) = some e := by
  obtain ⟨-, hemits⟩ := emits_of_exec he hh
  cases hemits with
  | refused _ _ failed => exact ⟨rfl, failed⟩

/-- What a command leaves, it leaves under the name of its operation. -/
theorem tid_of_exec (he : exec t c i s = some (r, s')) {u : Tid} {e : Event}
    (hh : s'.history = (u, e) :: s.history) : u = t :=
  (emits_of_exec he hh).1

/-- A call in the record is the call that was answered. -/
theorem created_of_exec (he : exec t c i s = some (r, s')) {caseId : Uuid}
    {request : CreatePaymentLinkRequest} {made : Option PaymentLinkSnapshot}
    {answer : Except ProviderException PaymentLinkSnapshot}
    (hh : s'.history = (t, .created caseId request made answer) :: s.history) :
    i = .created made answer := by
  obtain ⟨-, hemits⟩ := emits_of_exec he hh
  cases hemits
  rfl

/-- And so is a search. -/
theorem found_of_exec (he : exec t c i s = some (r, s')) {referenceId : String}
    {answer : Except ProviderException (Option PaymentLinkSnapshot)}
    (hh : s'.history = (t, .found referenceId answer) :: s.history) : i = .found answer := by
  obtain ⟨-, hemits⟩ := emits_of_exec he hh
  cases hemits
  rfl

/-- An answer in the record is of a select, from what the operation sees. -/
theorem selected_of_exec (he : exec t c i s = some (r, s')) {query : Query} {result : query.Result}
    (hh : s'.history = (t, .selected query result) :: s.history) :
    c = .select query ∧ ∃ ids, result = query.eval (s.view t) ids := by
  obtain ⟨-, hemits⟩ := emits_of_exec he hh
  cases hemits with
  | selected _ ids => exact ⟨rfl, ids, rfl⟩

/-- No command ends its operation. -/
theorem not_ended_of_exec (he : exec t c i s = some (r, s')) {u : Tid} {o : Option Outcome} :
    s'.history ≠ (u, .ended o) :: s.history := by
  intro hh
  obtain ⟨-, hemits⟩ := emits_of_exec he hh
  cases hemits

end Exec

section Step

variable {w w' : World} {a : Action} {t : Tid} {e : Event}

/-- Whatever is neither a start nor an end is left by a command. -/
private theorem run_of_step (h : machine.step w a = some w')
    (hh : w'.shared.history = (t, e) :: w.shared.history)
    (hstarted : ∀ op, e ≠ .started op) (hended : ∀ o, e ≠ .ended o) :
    -- A start and an end are not commands.
    ∃ i c k r, a = .run t i ∧ w.prog? t = some (.call c k) ∧
      exec t c i w.shared = some (r, w'.shared) := by
  obtain ⟨op, rfl, rfl⟩ | ⟨u, i, op, c, k, r, s, rfl, ht, he, rfl⟩ |
    ⟨u, op, r, rfl, ht, rfl⟩ | ⟨u, op, p, rfl, ht, rfl⟩ := Machine.step_cases h
  · exact absurd (Prod.mk.inj (List.cons.inj hh).1).2.symm (hstarted op)
  · replace he := (machine_exec_eq_some.mp he).1
    obtain rfl := tid_of_exec he hh
    have hprog : w.prog? t = some (.call c k) := by rw [Interleave.World.prog?, ht]; rfl
    exact ⟨i, c, k, r, rfl, hprog, he⟩
  · exact absurd (Prod.mk.inj (List.cons.inj hh).1).2.symm (hended (some r))
  · exact absurd (Prod.mk.inj (List.cons.inj hh).1).2.symm (hended none)

/-- A start in the record is the action before it. -/
theorem started_of_step {op : Op} (h : machine.step w a = some w')
    (hh : w'.shared.history = (t, .started op) :: w.shared.history) : a = .start op := by
  obtain ⟨op', rfl, rfl⟩ | ⟨u, i, op', c, k, r, s, rfl, ht, he, rfl⟩ |
    ⟨u, op', r, rfl, ht, rfl⟩ | ⟨u, op', p, rfl, ht, rfl⟩ := Machine.step_cases h
  · exact congrArg Action.start (Event.started.inj (Prod.mk.inj (List.cons.inj hh).1).2)
  · obtain ⟨-, hemits⟩ := emits_of_exec (machine_exec_eq_some.mp he).1 hh
    cases hemits
  · cases (Prod.mk.inj (List.cons.inj hh).1).2
  · cases (Prod.mk.inj (List.cons.inj hh).1).2

/-- A transaction in the record was committed by the action before it. -/
theorem commits?_of_step {sts : List Stmt} (h : machine.step w a = some w')
    (hh : w'.shared.history = (t, .committed sts) :: w.shared.history) :
    w.commits? a = some (t, sts) := by
  obtain ⟨i, c, k, r, rfl, hprog, he⟩ := run_of_step h hh (by simp) (by simp)
  obtain ⟨rfl, rfl⟩ := committed_of_exec he hh
  rw [World.commits?, hprog]

/-- A refusal in the record is of the flush before it. -/
theorem flushes?_of_step {sts : List Stmt} {error : DbError} (h : machine.step w a = some w')
    (hh : w'.shared.history = (t, .refused sts error) :: w.shared.history) :
    w.flushes? a = some (t, sts) ∧ Store.checkAll sts (w.shared.view t) = some error := by
  obtain ⟨i, c, k, r, rfl, hprog, he⟩ := run_of_step h hh (by simp) (by simp)
  obtain ⟨rfl, hc⟩ := refused_of_exec he hh
  rw [World.flushes?, hprog]
  exact ⟨rfl, hc⟩

/-- An answer in the record is of the select before it. -/
theorem selects?_of_step {query : Query} {result : query.Result}
    (h : machine.step w a = some w')
    (hh : w'.shared.history = (t, .selected query result) :: w.shared.history) :
    w.selects? a = some (t, query) ∧ ∃ ids, result = query.eval (w.shared.view t) ids := by
  obtain ⟨i, c, k, r, rfl, hprog, he⟩ := run_of_step h hh (by simp) (by simp)
  obtain ⟨rfl, hresult⟩ := selected_of_exec he hh
  rw [World.selects?, hprog]
  exact ⟨rfl, hresult⟩

/-- A call in the record was answered by the action before it. -/
theorem created_of_step {caseId : Uuid} {request : CreatePaymentLinkRequest}
    {made : Option PaymentLinkSnapshot} {answer : Except ProviderException PaymentLinkSnapshot}
    (h : machine.step w a = some w')
    (hh : w'.shared.history = (t, .created caseId request made answer) :: w.shared.history) :
    a = .run t (.created made answer) := by
  obtain ⟨i, c, k, r, rfl, -, he⟩ := run_of_step h hh (by simp) (by simp)
  rw [created_of_exec he hh]

/-- A search in the record was answered by the action before it. -/
theorem found_of_step {referenceId : String}
    {answer : Except ProviderException (Option PaymentLinkSnapshot)}
    (h : machine.step w a = some w')
    (hh : w'.shared.history = (t, .found referenceId answer) :: w.shared.history) :
    a = .run t (.found answer) := by
  obtain ⟨i, c, k, r, rfl, -, he⟩ := run_of_step h hh (by simp) (by simp)
  rw [found_of_exec he hh]

end Step

/-! ### From the machine to its record -/

/-- What a reachable world owes to its record. -/
structure Recorded (w : World) : Prop where
  db : w.shared.db = History.replay w.shared.history
  consistent : w.shared.Consistent

namespace Reachable

variable {w w' : World}

/-- Every reachable world is the replay of its record. -/
theorem recorded (hw : Reachable w) : Recorded w := by
  have h := certified.invariant (I := fun s => s.db = History.replay s.history ∧ s.Consistent)
    ⟨rfl, (here_initial (t := 0)).consistent⟩ (fun t s s' hG hI => ?_) hw
  · exact ⟨h.1, h.2⟩
  · -- The database and the record change together, by the same event or by none.
    obtain ⟨e, hm, -⟩ := hG
    refine ⟨?_, hm.consistent hI.2⟩
    cases e with
    | none =>
      have hdb : s'.db = s.db := hm.db
      have hh : s'.history = s.history := hm.history
      rw [hdb, hh]
      exact hI.1
    | some e =>
      have hdb : s'.db = e.applyTo s.db := hm.db
      have hh : s'.history = (t, e) :: s.history := hm.history
      rw [hdb, hh, hI.1]
      rfl

/-- So is its database. -/
theorem db_eq (hw : Reachable w) : w.shared.db = History.replay w.shared.history := hw.recorded.db

end Reachable

/-- **A run extends its record by permitted events**, and by events that satisfy `P` if
its steps see to it. -/
theorem extends_of_reachesVia {ok : World → Action → Prop} {P : History → Tid → Event → Prop}
    {w w' : World} (hw : Reachable w) (h : machine.ReachesVia ok w w')
    (hok : ∀ w a w' t e, Reachable w → ok w a → machine.step w a = some w' →
      w'.shared.history = (t, e) :: w.shared.history → P w.shared.history t e) :
    Extends P w.shared.history w'.shared.history := by
  refine certified.invariant_via (I := fun w' => Extends P w.shared.history w'.shared.history)
    hw .refl (fun w₁ a w₂ hw₁ hok₁ hstep hG hI => ?_) h
  obtain ⟨e, hm, hp⟩ := hG
  -- Each step extends the record by the event of its guarantee.
  cases e with
  | none =>
    have hh : w₂.shared.history = w₁.shared.history := hm.history
    rw [hh]
    exact hI
  | some e =>
    have hh : w₂.shared.history = (a.actor w₁, e) :: w₁.shared.history := hm.history
    have hr := Reachable.recorded hw₁
    rw [hh]
    refine .cons hI ?_ (fun sts he => ?_) (hok w₁ a w₂ _ e hw₁ hok₁ hstep hh)
    · rw [← hr.db]
      exact hp e rfl hr.consistent
    · -- the open transaction still passes its checks
      rw [hm.committed sts (congrArg some he), ← hr.db]
      exact hr.consistent.isolated.checked _

/-- The step, if it commits, commits a transaction that satisfies `C`, a condition on
the record so far, the database, the operation and the statements. -/
def OnCommit (C : History → Db → Tid → List Stmt → Prop) (w : World) (a : Action) : Prop :=
  match w.commits? a with
  | some (t, sts) => C w.shared.history w.shared.db t sts
  | none => True

instance (C : History → Db → Tid → List Stmt → Prop) [∀ H db t sts, Decidable (C H db t sts)]
    (w : World) (a : Action) : Decidable (OnCommit C w a) := by
  unfold OnCommit
  split <;> infer_instance

/-- The events of a run whose commits satisfy `C`. -/
def CommitsMeet (C : History → Db → Tid → List Stmt → Prop) (H : History) (t : Tid) (e : Event) :
    Prop := ∀ sts, e = .committed sts → C H H.replay t sts

/-- A run whose commits satisfy a condition extends its record by such commits. -/
theorem extends_of_onCommit {C : History → Db → Tid → List Stmt → Prop} {w w' : World}
    (hw : Reachable w) (h : machine.ReachesVia (OnCommit C) w w') :
    Extends (CommitsMeet C) w.shared.history w'.shared.history := by
  -- The condition was set on the action, and is met by the transaction it commits.
  refine extends_of_reachesVia hw h fun w₁ a w₂ t e hw₁ hok hstep hh sts he => ?_
  subst he
  rw [OnCommit, commits?_of_step hstep hh, Reachable.db_eq hw₁] at hok
  exact hok

/-- The record of a reachable world is lawful. -/
theorem Reachable.lawful {w : World} (hw : Reachable w) : Lawful w.shared.history :=
  extends_of_reachesVia (w := World.empty) Machine.Reaches.refl hw fun _ _ _ _ _ _ _ _ _ => trivial

/-! ### After the end -/

/-- A thread with something in the record has been started; if it has ended, nothing of
its program is left, and nothing follows in the record. -/
private structure Closed (w : World) : Prop where
  started : ∀ t e, (t, e) ∈ w.shared.history → t < w.threads.length
  gone : ∀ t o, (t, .ended o) ∈ w.shared.history → w.prog? t = none
  last : ∀ (newer older : History) t o, w.shared.history = newer ++ (t, .ended o) :: older →
    newer.own t = []

/-- What a step of thread `u` leaves, if `u` was alive or is new. -/
private theorem Closed.step {w w' : World} {u : Tid} {e : Option Event} (hc : Closed w)
    (hm : Moves u e w.shared w'.shared) (hlen : w.threads.length ≤ w'.threads.length)
    (hu : u < w'.threads.length) (halive : w.prog? u = none → w.threads.length ≤ u)
    (hkeep : ∀ t, t ≠ u → t < w.threads.length → w.prog? t = none → w'.prog? t = none)
    (hover : ∀ o, e = some (.ended o) → w'.prog? u = none) : Closed w' := by
  -- An operation that has ended is not the one that moves: that one is alive, or new.
  have hnot : ∀ t o, (t, .ended o) ∈ w.shared.history → t ≠ u := by
    rintro t o ho rfl
    exact absurd (hc.started t _ ho) (Nat.not_lt.mpr (halive (hc.gone t o ho)))
  cases e with
  | none =>
    -- No event is left, and the record stays as it is.
    have hh : w'.shared.history = w.shared.history := hm.history
    refine ⟨fun t e he => ?_, fun t o ho => ?_, fun newer older t o h => ?_⟩
    · rw [hh] at he
      exact (hc.started t e he).trans_le hlen
    · rw [hh] at ho
      exact hkeep t (hnot t o ho) (hc.started t _ ho) (hc.gone t o ho)
    · rw [hh] at h
      exact hc.last newer older t o h
  | some e =>
    -- The new event is the newest; it ends its own thread if it is an end.
    have hh : w'.shared.history = (u, e) :: w.shared.history := hm.history
    refine ⟨fun t e' he => ?_, fun t o ho => ?_, fun newer older t o h => ?_⟩
    · rw [hh] at he
      rcases List.mem_cons.mp he with he | he
      · cases he
        exact hu
      · exact (hc.started t e' he).trans_le hlen
    · rw [hh] at ho
      rcases List.mem_cons.mp ho with ho | ho
      · cases ho
        exact hover o rfl
      · exact hkeep t (hnot t o ho) (hc.started t _ ho) (hc.gone t o ho)
    · rw [hh] at h
      -- The end is the new event, and nothing follows it.
      cases newer with
      | nil => rfl
      | cons p newer =>
        obtain ⟨rfl, hrest⟩ := List.cons.inj h
        have ho : (t, .ended o) ∈ w.shared.history := by
          rw [hrest]
          exact List.mem_append_right _ List.mem_cons_self
        rw [History.own_cons_ne (hnot t o ho)]
        exact hc.last newer older t o hrest

/-- Nothing is started at first. -/
private theorem Closed.empty : Closed World.empty where
  started := fun _ _ he => absurd he List.not_mem_nil
  gone := fun _ _ ho => absurd ho List.not_mem_nil
  last := fun newer older _ _ h => by
    have hlen := congrArg List.length h
    simp [World.empty, Interleave.World.init, State.initial] at hlen

/-- A step of a thread that is alive. -/
private theorem Closed.of_set {w : World} {s : State} {u : Tid} {e : Option Event} (hc : Closed w)
    {th th' : Thread sig Op Outcome} (ht : w.threads[u]? = some th) (halive : th.prog ≠ none)
    (hm : Moves u e w.shared s) (hover : ∀ o, e = some (.ended o) → th'.prog = none) :
    Closed ⟨s, w.threads.set u th'⟩ := by
  have hlt : u < w.threads.length := (List.getElem?_eq_some_iff.mp ht).1
  refine hc.step hm (by simp) (by simpa using hlt) (fun hnone => ?_) (fun t htu _ hnone => ?_)
    fun o ho => ?_
  · rw [Interleave.World.prog?, ht] at hnone
    exact absurd hnone halive
  · rw [Interleave.World.prog?, List.getElem?_set_ne (Ne.symm htu)]
    exact hnone
  · rw [Interleave.World.prog?, List.getElem?_set_self hlt]
    exact hover o ho

/-- No reachable record goes on after an end. -/
private theorem Reachable.closed {w : World} (hw : Reachable w) : Closed w := by
  refine certified.invariant_via (I := Closed) Machine.Reaches.refl Closed.empty
    (fun w a w' _ _ hstep hG hI => ?_) hw
  obtain ⟨e, hm, -⟩ := hG
  obtain ⟨op, rfl, rfl⟩ | ⟨u, i, op, c, k, r, s, rfl, ht, he, rfl⟩ |
    ⟨u, op, r, rfl, ht, rfl⟩ | ⟨u, op, p, rfl, ht, rfl⟩ := Machine.step_cases hstep
  · -- A start makes a new thread.
    refine hI.step hm (by simp) (by simp [Action.actor]) (fun _ => le_rfl)
      (fun t _ hlt hnone => ?_) fun o ho => ?_
    · rw [Interleave.World.prog?, List.getElem?_append_left hlt]
      exact hnone
    · -- the event of a start is not an end
      have hh := hm.history
      rw [ho] at hh
      exact absurd (Prod.mk.inj (List.cons.inj hh).1).2 (by simp)
  · -- A command does not end its thread.
    refine hI.of_set ht (by simp) hm fun o ho => ?_
    have hh := hm.history
    rw [ho] at hh
    exact absurd hh (not_ended_of_exec (machine_exec_eq_some.mp he).1)
  · -- A return ends its thread, and a kill does.
    exact hI.of_set ht (by simp) hm fun _ _ => rfl
  · exact hI.of_set ht (by simp) hm fun _ _ => rfl

/-- **The end of an operation is the last of it.** -/
theorem Reachable.own_of_ended {w : World} (hw : Reachable w) {t : Tid} {o : Option Outcome}
    (h : (t, .ended o) ∈ w.shared.history) :
    ∃ newer older : History, w.shared.history = newer ++ (t, .ended o) :: older ∧
      Lawful older ∧ Permitted (older.own t) older.replay (.ended o) ∧
      History.own w.shared.history t = .ended o :: older.own t := by
  obtain ⟨newer, older, hsplit, hl, hp, -⟩ := (Reachable.lawful hw).split h
  refine ⟨newer, older, hsplit, hl, hp, ?_⟩
  rw [hsplit, History.own_append, (Reachable.closed hw).last newer older t o hsplit,
    History.own_cons_self]
  rfl

/-- A thread that is over has left its end in the record, and no open transaction. -/
private structure Over (w : World) : Prop where
  ended : ∀ t < w.threads.length, w.prog? t = none → ∃ o, (t, .ended o) ∈ w.shared.history
  rolledBack : ∀ t, w.prog? t = none → w.shared.pendingOf t = []

/-- What a step has to see to: the other threads are as they were, and its own is over only by an
end. -/
private theorem Over.step {w w' : World} {u : Tid} {e : Option Event} (ho : Over w)
    (hm : Moves u e w.shared w'.shared)
    (hothers : ∀ t, t ≠ u → w'.prog? t = none →
      (t < w'.threads.length → t < w.threads.length) ∧ w.prog? t = none)
    (hover : w'.prog? u = none → (∃ o, e = some (.ended o)) ∧ w'.shared.pendingOf u = []) :
    Over w' where
  ended := fun t ht hnone => by
    rw [hm.history]
    by_cases htu : t = u
    · -- The thread that moves is over only by an end, which is the event.
      obtain ⟨⟨o, rfl⟩, -⟩ := hover (htu ▸ hnone)
      exact ⟨o, htu ▸ List.mem_cons_self⟩
    · -- Any other was over before.
      obtain ⟨hlt, hnone⟩ := hothers t htu hnone
      obtain ⟨o, hmem⟩ := ho.ended t (hlt ht) hnone
      exact ⟨o, List.mem_append_right _ hmem⟩
  rolledBack := fun t hnone => by
    by_cases htu : t = u
    · exact htu ▸ (hover (htu ▸ hnone)).2
    · rw [hm.others t htu]
      exact ho.rolledBack t (hothers t htu hnone).2

/-- A step of a thread that is alive, to which it is alive or has ended. -/
private theorem Over.of_set {w : World} {s : State} {u : Tid} {e : Option Event} (ho : Over w)
    {th : Thread sig Op Outcome} (hlt : u < w.threads.length) (hm : Moves u e w.shared s)
    (hover : th.prog = none → (∃ o, e = some (.ended o)) ∧ s.pendingOf u = []) :
    Over ⟨s, w.threads.set u th⟩ := by
  refine ho.step hm (fun t htu hnone => ⟨fun ht => by simpa using ht, ?_⟩) fun hnone => hover ?_
  · rwa [Interleave.World.prog?, List.getElem?_set_ne (Ne.symm htu)] at hnone
  · rwa [Interleave.World.prog?, List.getElem?_set_self hlt] at hnone

/-- Nor is a thread over without one. -/
private theorem Reachable.over {w : World} (hw : Reachable w) : Over w := by
  refine certified.invariant_via (I := Over) Machine.Reaches.refl ⟨?_, fun _ _ => rfl⟩
    (fun w a w' _ _ hstep hG hI => ?_) hw
  · exact fun t ht => absurd ht (Nat.not_lt_zero t)
  obtain ⟨e, hm, -⟩ := hG
  have hrolled : ∀ (x : Txns Db Stmt) u, (x.rollback u).pendingOf u = [] := fun x u => by
    simp [Txns.rollback, Txns.pendingOf, Txns.others, List.filter_filter]
  -- The event of an end is an end.
  have hended : ∀ {u o} {H : History}, (u, Event.ended o) :: H =
      e.toList.map (fun e => (u, e)) ++ H → e = some (.ended o) := by
    intro u o H hh
    cases e with
    | none => simpa using congrArg List.length hh
    | some e => exact congrArg some (Prod.mk.inj (List.cons.inj hh).1).2.symm
  obtain ⟨op, rfl, rfl⟩ | ⟨u, i, op, c, k, r, s, rfl, ht, he, rfl⟩ |
    ⟨u, op, r, rfl, ht, rfl⟩ | ⟨u, op, p, rfl, ht, rfl⟩ := Machine.step_cases hstep
  · -- The new thread is alive; the others are as they were.
    refine hI.step hm (fun t htu hnone => ?_) fun hnone => ?_
    · rcases Nat.lt_or_ge t w.threads.length with hlt | hge
      · rw [Interleave.World.prog?, List.getElem?_append_left hlt] at hnone
        exact ⟨fun _ => hlt, hnone⟩
      · have hgt : w.threads.length < t := lt_of_le_of_ne hge fun h => htu h.symm
        refine ⟨fun hlt => ?_, ?_⟩
        · rw [List.length_append, List.length_singleton] at hlt
          exact absurd hlt (Nat.not_lt.mpr hgt)
        · rw [Interleave.World.prog?, List.getElem?_eq_none hge]
          rfl
    · rw [Interleave.World.prog?, Action.actor, List.getElem?_concat_length] at hnone
      cases hnone
  · -- A command leaves its thread alive.
    have hlt := (List.getElem?_eq_some_iff.mp ht).1
    exact hI.of_set hlt hm fun hnone => by cases hnone
  · -- An end leaves nothing pending.
    have hlt := (List.getElem?_eq_some_iff.mp ht).1
    exact hI.of_set hlt hm fun _ => ⟨⟨_, hended hm.history⟩, hrolled _ u⟩
  · have hlt := (List.getElem?_eq_some_iff.mp ht).1
    exact hI.of_set hlt hm fun _ => ⟨⟨_, hended hm.history⟩, hrolled _ u⟩

/-- **Where no thread is alive, no transaction is open.** -/
theorem Reachable.pending_of_quiescent {w : World} (hw : Reachable w) (hq : w.Quiescent) :
    w.shared.pending = [] := by
  have hgone : ∀ t, w.prog? t = none := fun t => by
    rw [Interleave.World.prog?]
    cases ht : w.threads[t]? with
    | none => rfl
    | some th => exact hq th (List.mem_of_getElem? ht)
  -- A statement that waits belongs to some operation, and that one is over.
  refine List.eq_nil_iff_forall_not_mem.mpr fun p hp => ?_
  have hmem : p.2 ∈ w.shared.pendingOf p.1 :=
    List.mem_map.mpr ⟨p, List.mem_filter.mpr ⟨hp, decide_eq_true rfl⟩, rfl⟩
  rw [(Reachable.over hw).rolledBack p.1 (hgone p.1)] at hmem
  cases hmem

/-- There every operation that has left anything in the record has left its end. -/
theorem Reachable.own_of_quiescent {w : World} (hw : Reachable w) (hq : w.Quiescent) (t : Tid) :
    History.own w.shared.history t = [] ∨
      ∃ o older, History.own w.shared.history t = .ended o :: older := by
  rcases List.eq_nil_or_concat' (History.own w.shared.history t) with hnil | ⟨es, e, hown⟩
  · exact .inl hnil
  · -- An event in the record is of a thread that was started and, here, is over.
    have hmem : (t, e) ∈ w.shared.history := History.mem_own.mp (by rw [hown]; simp)
    have hlt := (Reachable.closed hw).started t e hmem
    have hgone : w.prog? t = none := by
      rw [Interleave.World.prog?, List.getElem?_eq_getElem hlt]
      exact hq _ (List.getElem_mem hlt)
    obtain ⟨o, ho⟩ := (Reachable.over hw).ended t hlt hgone
    obtain ⟨-, older, -, -, -, hown⟩ := Reachable.own_of_ended hw ho
    exact .inr ⟨o, older.own t, hown⟩

/-- A run whose steps satisfy no further condition. -/
theorem extends_of_reaches {w w' : World} (hw : Reachable w) (h : machine.Reaches w w') :
    Extends (fun _ _ _ => True) w.shared.history w'.shared.history :=
  extends_of_reachesVia hw h fun _ _ _ _ _ _ _ _ _ => trivial

end RecoverAI
