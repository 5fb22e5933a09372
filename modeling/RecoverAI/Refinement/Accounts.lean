import RecoverAI.Framework.Views
import RecoverAI.Refinement.Common
import RecoverAI.Services.System

/-!
# The account of an operation

To an operation belong its events and what its session has flushed and not committed
(`Part`). Nobody else changes them, whatever the remote parties raise, so what a service
leaves there can be told from its text alone (`Service.Tells`), with one rule for each way to
build a service. `account_of_ended` carries it to every run of the open machine.
-/

namespace RecoverAI

open Interleave

/-- What belongs to an operation. -/
structure Part where
  /-- Its events, newest first. -/
  own : List Event
  /-- What its session has flushed and not committed. -/
  pending : List Stmt

/-- The part of operation `t`. -/
def State.part (t : Tid) (s : State) : Part := ⟨s.own t, s.pendingOf t⟩

/-- The event is neither the start of an operation nor its end. -/
def Event.ongoing : Event → Bool
  | .started _ => false
  | .ended _ => false
  | _ => true

section Exec

variable {t u : Tid} {c : Cmd} {i : Input} {s s' : State} {r : c.Reply} {e : Event}

/-- An event of one operation is in no other record. -/
theorem State.own_emit_ne (h : u ≠ t) : (s.emit t e).own u = s.own u := by
  have ht : ¬ t = u := fun he => h he.symm
  simp [State.own, State.emit, ht]

@[simp] theorem State.part_emit_self : (s.emit t e).part t = ⟨e :: s.own t, s.pendingOf t⟩ := by
  rw [State.part, State.own_emit_self]
  rfl

/-- It changes no other part. -/
theorem State.part_emit_ne (h : u ≠ t) : (s.emit t e).part u = s.part u := by
  rw [State.part, State.own_emit_ne h]
  rfl

/-- A change of the transactions keeps the record. -/
theorem State.part_withTxns {x : Txns Db Stmt} :
    (s.withTxns x).part u = ⟨s.own u, x.pendingOf u⟩ := rfl

/-- A command leaves one event at most, one that is neither a start nor an end, and leaves the
parts of the other operations alone. -/
theorem part_of_exec (he : exec t c i s = some (r, s')) :
    (s'.own t = s.own t ∨ ∃ e, e.ongoing = true ∧ s'.own t = e :: s.own t) ∧
      ∀ u, u ≠ t → s'.part u = s.part u := by
  cases c <;> cases i <;> simp only [exec] at he <;> try cases he
  -- A flush leaves an event only if it is refused; what it adds is pending for this operation
  -- alone.
  case flush.go sts =>
    split at he <;> cases he
    · next x hx =>
      obtain ⟨-, ⟨e, he, -⟩ | ⟨-, -, rfl⟩⟩ := Txns.flush_cases hx
      · cases he
      · refine ⟨.inl rfl, fun u hu => ?_⟩
        rw [State.part_withTxns, Txns.enlist_pendingOf_ne hu]
        rfl
    · next e x hx =>
      obtain ⟨-, ⟨-, -, -, rfl⟩ | ⟨he, -⟩⟩ := Txns.flush_cases hx
      · refine ⟨.inr ⟨.refused sts e, rfl, State.own_emit_self⟩, fun u hu => ?_⟩
        rw [State.part_emit_ne hu, State.part_withTxns, Txns.rollback_pendingOf_ne hu]
        rfl
      · cases he
  -- A commit leaves its event and empties what is pending.
  case commit.go =>
    refine ⟨.inr ⟨_, rfl, State.own_emit_self⟩, fun u hu => ?_⟩
    rw [State.part_emit_ne hu, State.part_withTxns, Txns.commit_pendingOf_ne hu]
    rfl
  -- A rollback leaves none.
  case rollback.go =>
    refine ⟨.inl rfl, fun u hu => ?_⟩
    rw [State.part_withTxns, Txns.rollback_pendingOf_ne hu]
    rfl
  case createPaymentLink.created =>
    split at he <;> cases he
    exact ⟨.inr ⟨_, rfl, State.own_emit_self⟩, fun u hu => State.part_emit_ne hu⟩
  case uuid4.uuid => exact ⟨.inl rfl, fun _ _ => rfl⟩
  -- The other commands leave their event and flush nothing.
  all_goals exact ⟨.inr ⟨_, rfl, State.own_emit_self⟩, fun u hu => State.part_emit_ne hu⟩

/-- The parts are separate: neither a start nor a command nor an end touches another one. -/
theorem separate_part : openMachine.Separate State.part where
  start := fun hu => State.part_emit_ne hu
  exec := fun hu he => (part_of_exec he).2 _ hu
  close := fun {t u o s} hu => by
    change ((s.withTxns (s.toTxns.rollback t)).emit t (.ended o)).part u = s.part u
    rw [State.part_emit_ne hu, State.part_withTxns, Txns.rollback_pendingOf_ne hu]
    rfl

end Exec

/-! ### Services -/

/-- From the part `⟨h, p⟩` the service of operation `t` returns as `Q` says, or raises as `E`
says. -/
def Service.Tells {α : Type} (t : Tid) (E : Raised → List Event → List Stmt → Prop)
    (Q : α → List Event → List Stmt → Prop) (s : Service α) (h : List Event) (p : List Stmt) :
    Prop :=
  s.run.Tells openMachine State.part t (fun r v => match r with
    | .ok a => Q a v.own v.pending
    | .error e => E e v.own v.pending) ⟨h, p⟩

namespace Service.Tells

variable {α β : Type} {t : Tid} {E : Raised → List Event → List Stmt → Prop}
  {Q : α → List Event → List Stmt → Prop} {s : Service α} {h : List Event} {p : List Stmt}

/-- A service that returns. -/
theorem pure {a : α} (hQ : Q a h p) : Service.Tells t E Q (Pure.pure a) h p := hQ

/-- A service that raises. -/
theorem throw {e : Raised} (hE : E e h p) : Service.Tells t E Q (MonadExcept.throw e) h p := hE

/-- A service that raises a domain error. -/
theorem raise {e : RecoverAIError} (hE : E (.recoverAI e) h p) :
    Service.Tells t E Q (Service.raise e) h p := hE

/-- A weaker account. -/
theorem mono {E' : Raised → List Event → List Stmt → Prop} {Q' : α → List Event → List Stmt → Prop}
    (hs : s.Tells t E Q h p) (hE : ∀ e h p, E e h p → E' e h p)
    (hQ : ∀ a h p, Q a h p → Q' a h p) : s.Tells t E' Q' h p := by
  refine Prog.Tells.mono hs fun r v hr => ?_
  cases r with
  | ok a => exact hQ a _ _ hr
  | error e => exact hE e _ _ hr

/-- Sequencing: the rest starts with what is left. -/
theorem bind {f : α → Service β} {Q : β → List Event → List Stmt → Prop}
    (hs : s.Tells t E (fun a h p => (f a).Tells t E Q h p) h p) : (s >>= f).Tells t E Q h p := by
  unfold Service.Tells
  rw [ExceptT.run_bind, Prog.tells_bind]
  refine Prog.Tells.mono hs fun r v hr => ?_
  cases r with
  | ok a => exact hr
  | error e => exact hr

/-- A weaker account of what it returns. -/
theorem imp {Q' : α → List Event → List Stmt → Prop} (hs : s.Tells t E Q h p)
    (hQ : ∀ a h p, Q a h p → Q' a h p) : s.Tells t E Q' h p :=
  hs.mono (fun _ _ _ hE => hE) hQ

/-- Sequencing, from what is told of the first part. -/
theorem seq {f : α → Service β} {Q' : β → List Event → List Stmt → Prop} (hs : s.Tells t E Q h p)
    (hf : ∀ a h p, Q a h p → (f a).Tells t E Q' h p) : (s >>= f).Tells t E Q' h p :=
  .bind (hs.imp hf)

/-- A result that is only transformed. -/
theorem map {f : α → β} {Q : β → List Event → List Stmt → Prop}
    (hs : s.Tells t E (fun a h p => Q (f a) h p) h p) : (f <$> s).Tells t E Q h p := by
  rw [← bind_pure_comp]
  exact .bind (hs.mono (fun _ _ _ hE => hE) fun _ _ _ hQ => .pure hQ)

/-- A handler starts with what the exception has left. -/
theorem tryCatch {f : Raised → Service α}
    (hs : s.Tells t (fun e h p => (f e).Tells t E Q h p) Q h p) :
    (MonadExcept.tryCatch s f).Tells t E Q h p := by
  -- The rule of a try block for programs, at the empty continuation.
  have hrun := run_tryCatch_bind s f Prog.done
  rw [show Prog.done = (Pure.pure : Except Raised α → Prog sig _) from rfl, bind_pure] at hrun
  unfold Service.Tells
  rw [hrun, Prog.tells_bind]
  refine Prog.Tells.mono hs fun r v hr => ?_
  cases r with
  | ok a => exact hr
  | error e =>
    change Prog.Tells _ _ _ _ ((f e).run >>= Pure.pure) v
    rw [bind_pure]
    exact hr

/-- Either branch tells the same. -/
theorem ite {c : Prop} [Decidable c] {s' : Service α} (hs : c → s.Tells t E Q h p)
    (hs' : ¬ c → s'.Tells t E Q h p) : (if c then s else s').Tells t E Q h p := by
  split
  · next hc => exact hs hc
  · next hc => exact hs' hc

/-! Commands -/

/-- A single command, told by what the machine does for it. -/
theorem perform {c : Cmd} {Q : c.Reply → List Event → List Stmt → Prop}
    (hQ : ∀ (s : State) (i : Input) (r : c.Reply) (s' : State), s.own t = h → s.pendingOf t = p →
      exec t c i s = some (r, s') → Q r (s'.own t) (s'.pendingOf t)) :
    -- The rule is for the states in which the part is the one given, so only the part goes into
    -- what is told.
    (Service.perform c).Tells t E Q h p := fun s i r s' hv he =>
  hQ s i r s' (congrArg Part.own hv) (congrArg Part.pending hv) he

/-- A select, on any database and in any order of ties. -/
theorem select {q : Query} {Q : q.Result → List Event → List Stmt → Prop}
    (hQ : ∀ db ranking, Q (q.eval db ranking) (.selected q (q.eval db ranking) :: h) p) :
    (Service.select q).Tells t E Q h p := by
  refine .perform fun s i r s' hh hp he => ?_
  cases i <;> simp only [exec] at he <;> cases he
  rw [State.own_emit_self, hh]
  -- What a select answers depends on the database, which is not in the part: any answer has to do.
  exact hp ▸ hQ _ _

/-- The clock is read. -/
theorem now {Q : Time → List Event → List Stmt → Prop} (hQ : ∀ now, Q now (.clock now :: h) p) :
    Service.now.Tells t E Q h p := by
  refine .perform fun s i r s' hh hp he => ?_
  cases i <;> simp only [exec] at he <;> cases he
  rw [State.own_emit_self, hh]
  exact hp ▸ hQ _

/-- An id is drawn: no event tells of it. -/
theorem uuid4 {Q : Uuid → List Event → List Stmt → Prop} (hQ : ∀ id, Q id h p) :
    Service.uuid4.Tells t E Q h p := by
  refine .perform fun s i r s' hh hp he => ?_
  cases i <;> simp only [exec] at he <;> cases he
  exact hh ▸ hp ▸ hQ _

/-- The settings are read. -/
theorem getSettings {Q : Settings → List Event → List Stmt → Prop}
    (hQ : ∀ settings, Q settings (.configured settings :: h) p) :
    Service.getSettings.Tells t E Q h p := by
  refine .perform fun s i r s' hh hp he => ?_
  cases i <;> simp only [exec] at he <;> cases he
  rw [State.own_emit_self, hh]
  exact hp ▸ hQ _

/-- What is pending is committed. -/
theorem commit {Q : Unit → List Event → List Stmt → Prop} (hQ : Q () (.committed p :: h) []) :
    Service.commit.Tells t E Q h p := by
  refine .perform fun s i r s' hh hp he => ?_
  cases i <;> simp only [exec] at he <;> cases he
  rw [State.own_emit_self, State.withTxns_own, hh, hp]
  exact Txns.commit_pendingOf s.toTxns t ▸ hQ

/-- What is pending is dropped. -/
theorem rollback {Q : Unit → List Event → List Stmt → Prop} (hQ : Q () h []) :
    Service.rollback.Tells t E Q h p := by
  refine .perform fun s i r s' hh hp he => ?_
  cases i <;> simp only [exec] at he <;> cases he
  rw [State.withTxns_own, hh]
  exact Txns.rollback_pendingOf s.toTxns t ▸ hQ

/-- A flush is added to what is pending, or takes it along when it is refused. -/
theorem flush {sts : List Stmt} {Q : Unit → List Event → List Stmt → Prop}
    (hQ : Q () h (p ++ sts))
    (hE : ∀ (e : DbError) (db : Db), Store.checkAll sts db = some e →
      E e.raised (.refused sts e :: h) []) :
    (Service.flush sts).Tells t E Q h p := by
  refine .bind (.perform fun s i r s' hh hp he => ?_)
  cases i <;> simp only [exec] at he <;> try cases he
  split at he <;> cases he
  · -- The statements are added to what is pending.
    next x hx =>
    obtain ⟨-, ⟨e, he, -⟩ | ⟨-, -, rfl⟩⟩ := Txns.flush_cases hx
    · cases he
    · rw [State.withTxns_own, hh]
      change Q () h ((s.toTxns.enlist t sts).pendingOf t)
      rw [Txns.enlist_pendingOf]
      exact hp ▸ hQ
  · -- They are refused, and the transaction with them.
    next e x hx =>
    obtain ⟨-, ⟨e', he', hc, rfl⟩ | ⟨he', -⟩⟩ := Txns.flush_cases hx <;> cases he'
    rw [State.own_emit_self, State.withTxns_own, hh]
    have hnone := Txns.rollback_pendingOf s.toTxns t
    change Service.Tells t E Q _ _ ((s.toTxns.rollback t).pendingOf t)
    rw [hnone]
    have hraised := hE e _ hc
    cases e <;> exact hraised

/-- The AI answers or raises, whatever it may be. -/
theorem getRecommendation {context : PaymentRecoveryContext}
    {Q : AIOutcome → List Event → List Stmt → Prop}
    (hQ : ∀ a, Q a (.recommended context (.ok a) :: h) p)
    (hE : ∀ e, E e (.recommended context (.error e) :: h) p) :
    (RecoverAI.getRecommendation context).Tells t E Q h p := by
  refine .bind (.perform fun s i r s' hh hp he => ?_)
  cases i <;> simp only [exec] at he <;> cases he
  rw [State.own_emit_self, hh]
  cases r with
  | ok a => exact hp ▸ hQ a
  | error e => exact hp ▸ hE e

/-- A check that returns, or raises a domain error. -/
theorem ofExcept {r : Except RecoverAIError α} (hQ : ∀ a, r = .ok a → Q a h p)
    (hE : ∀ e, r = .error e → E (.recoverAI e) h p) : (Service.ofExcept r).Tells t E Q h p := by
  cases r with
  | ok a => exact .pure (hQ a rfl)
  | error e => exact .raise (hE e rfl)

end Service.Tells

/-! ### Runs -/

/-- An operation that has been started and is not over. -/
def Underway (op : Op) (v : Part) : Prop :=
  ∃ es, v.own = es ++ [.started op] ∧ ∀ e ∈ es, e.ongoing = true

/-- An operation that is over, and what was told of it. -/
def NoLonger (Q : Op → Outcome → List Event → List Stmt → Prop) (op : Op) (v : Part) : Prop :=
  ∃ o h p, v.own = .ended o :: h ∧ Underway op ⟨h, p⟩ ∧ ∀ outcome, o = some outcome → Q op outcome h p

section Runs

variable {Q : Op → Outcome → List Event → List Stmt → Prop} {w : World} {t : Tid} {op : Op}

/-- Every operation of a reachable world is not started, under way, or over as told. -/
theorem accounted
    (htells : ∀ t (op : Op), op.service.Tells t (fun e => Q op (.error e)) (fun a => Q op (.ok a))
      [.started op] [])
    (hw : openMachine.Reaches World.empty w) :
    Machine.Accounted openMachine State.part ⟨[], []⟩ Underway
      (fun op outcome v => Q op outcome v.own v.pending) (NoLonger Q) w := by
  refine .of_reaches separate_part (fun _ => rfl) (fun t op s hv => ?_)
    (fun t op c i s r s' hJ he => ?_) (fun t op outcome s hJ hQ => ?_) (fun t op s hJ => ?_) hw
  · -- The start finds an empty part, and leaves its event in it.
    obtain ⟨hown, hpending⟩ := Part.mk.inj hv
    have hstart : (openMachine.start t op s).part t = ⟨[.started op], []⟩ := by
      change (s.emit t (.started op)).part t = _
      rw [State.part_emit_self, hown, hpending]
    rw [hstart]
    refine ⟨⟨[], rfl, by simp⟩, Prog.Tells.mono (htells t op) fun r v hr => ?_⟩
    cases r <;> exact hr
  · -- A command adds one ongoing event at most.
    obtain ⟨es, hes, hongoing⟩ := hJ
    change s.own t = _ at hes
    obtain ⟨hsame | ⟨e, he, hmore⟩, -⟩ := part_of_exec he
    · exact ⟨es, hsame.trans hes, hongoing⟩
    · refine ⟨e :: es, ?_, List.forall_mem_cons.mpr ⟨he, hongoing⟩⟩
      change s'.own t = _
      rw [hmore, hes, List.cons_append]
  · -- A return is the end that what was told is about.
    refine ⟨some outcome, s.own t, s.pendingOf t, State.own_emit_self, hJ, fun o ho => ?_⟩
    cases ho
    exact hQ
  · -- A kill tells nothing of the operation.
    exact ⟨none, s.own t, s.pendingOf t, State.own_emit_self, hJ, fun o ho => by cases ho⟩

/-- The record of an operation under way holds one start, and no end. -/
theorem Underway.eq_of_started {v : Part} (h : Underway op v) {op' : Op}
    (hst : .started op' ∈ v.own) : op' = op := by
  obtain ⟨es, hes, hongoing⟩ := h
  rw [hes, List.mem_append, List.mem_singleton] at hst
  rcases hst with hst | hst
  · -- No ongoing event is a start.
    cases hongoing _ hst
  · exact Event.started.inj hst

/-- An operation that has not been started has left nothing. -/
theorem own_of_fresh (hw : openMachine.Reaches World.empty w) (ht : w.threads[t]? = none) :
    w.shared.own t = [] := by
  have hacc := accounted (Q := fun _ _ _ _ => True)
    (fun t op => Prog.Tells.of_forall fun r _ => by cases r <;> trivial) hw
  exact congrArg Part.own (hacc.fresh t ht)

/-- An operation that is alive has been started. -/
theorem started_of_alive (hw : openMachine.Reaches World.empty w) {p : Prog sig Outcome}
    (ht : w.threads[t]? = some ⟨op, some p⟩) : .started op ∈ w.shared.own t := by
  have hacc := accounted (Q := fun _ _ _ _ => True)
    (fun t op => Prog.Tells.of_forall fun r _ => by cases r <;> trivial) hw
  obtain ⟨es, hes, -⟩ := (hacc.alive t op p ht).1
  change w.shared.own t = _ at hes
  rw [hes]
  simp

end Runs

end RecoverAI
