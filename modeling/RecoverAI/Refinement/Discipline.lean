import RecoverAI.Framework.Locks
import RecoverAI.Framework.Monitors
import RecoverAI.Refinement.Common
import RecoverAI.Services.System

/-!
# The discipline of a session

A monitor for the database sessions of the operations. Its state is what a session has open:
the statements it has flushed since its last commit or rollback, and with them the locks it
holds, and the time it has read since its last flush. The discipline says

* that locks are asked for in the order of their ranks (`RowKey.rank`), where a sweep may ask
  for several of the highest rank one after the other;
* that nothing is open while a payment link is created, no lock is held while one is looked
  for, and the row of one case at most is held while the AI is asked;
* that audit events are recorded one by one, each with the time read just before it, and a
  change of a status while the row of its case is held.

`Service.Keeps` is the discipline for a service, with one rule for each way to build one. A
domain error that a cycle catches leaves nothing open (`Raised.Clears`), and so it is expected
of the remote parties.
-/

namespace RecoverAI

open Interleave

/-- The order in which locks are taken. -/
def RowKey.rank : RowKey → ℕ
  -- A delivery claims its event before it touches a row.
  | .dedupKey _ => 0
  -- Its link comes next, and the keys a new link takes.
  | .paymentRequest _ => 1
  | .paymentRequestAttempt _ => 1
  | .providerReference _ => 1
  | .referenceId _ => 1
  | .attempt _ => 2
  | .idempotencyKey _ => 2
  | .customer _ => 3
  | .payment _ => 4
  -- Cases come last, and a sweep opens several of them one after the other.
  | .recoveryCase _ => 5
  | .casePayment _ => 5

/-- There are six ranks. -/
theorem RowKey.rank_le (k : RowKey) : k.rank ≤ 5 := by
  cases k <;> simp [rank]

/-- The locks of some statements. -/
def keysOf (sts : List Stmt) : List RowKey := sts.flatMap Stmt.keys

@[simp] theorem keysOf_nil : keysOf [] = [] := rfl

@[simp] theorem keysOf_cons (st : Stmt) (sts : List Stmt) :
    keysOf (st :: sts) = st.keys ++ keysOf sts := List.flatMap_cons

@[simp] theorem keysOf_append (sts sts' : List Stmt) :
    keysOf (sts ++ sts') = keysOf sts ++ keysOf sts' := List.flatMap_append

/-- A lock of some statements is one of a statement among them. -/
theorem mem_keysOf {k : RowKey} {sts : List Stmt} : k ∈ keysOf sts ↔ ∃ st ∈ sts, k ∈ st.keys :=
  List.mem_flatMap

/-- The operation opens cases in a loop, within one transaction. -/
def Op.sweeps : Op → Bool
  | .discover _ _ => true
  | .cycle _ _ => true
  | _ => false

/-- The operation catches the domain errors of single cases. -/
def Op.cycles : Op → Bool
  | .cycle _ _ => true
  | _ => false

/-- A cycle begins with a sweep. -/
theorem Op.sweeps_of_cycles {op : Op} (h : op.cycles = true) : op.sweeps = true := by
  cases op <;> first | rfl | cases h

/-- The event is a change of a status. -/
def AuditBody.isChange : AuditBody → Bool
  | .recoveryCaseStatusChanged _ _ _ => true
  | _ => false

/-- The event that a statement records. -/
def Stmt.auditRow? : Stmt → Option AuditEvent
  | .insertAuditEvent row => some row
  | _ => none

/-- The events that some statements record. -/
def rowsOf (sts : List Stmt) : List AuditEvent := sts.filterMap Stmt.auditRow?

@[simp] theorem rowsOf_nil : rowsOf [] = [] := rfl

/-- Events are recorded in the order of the statements. -/
theorem rowsOf_append (sts sts' : List Stmt) : rowsOf (sts ++ sts') = rowsOf sts ++ rowsOf sts' :=
  List.filterMap_append

/-- What writes other tables records no event. -/
theorem rowsOf_of_tables {sts : List Stmt} (h : ∀ st ∈ sts, st.table ≠ .auditEvents) :
    rowsOf sts = [] := by
  refine List.filterMap_eq_nil_iff.mpr fun st hst => ?_
  -- Any other statement writes another table and records no event.
  cases st with
  | insertAuditEvent row => exact absurd rfl (h _ hst)
  | _ => rfl

/-- What a session has open. -/
structure Session where
  /-- What it has flushed and not committed. -/
  held : List Stmt
  /-- The time it has read last, unless it has flushed since. -/
  stamp : Option Time

namespace Session

/-- A session with nothing open. -/
def idle : Session := ⟨[], none⟩

/-- The locks it holds. -/
def keys (x : Session) : List RowKey := keysOf x.held

/-- A flush joins what is open, and uses the reading up. -/
def flushed (x : Session) (sts : List Stmt) : Session := ⟨x.held ++ sts, none⟩

/-- A reading of the clock. -/
def stamped (x : Session) (t : Time) : Session := ⟨x.held, some t⟩

@[simp] theorem idle_held : idle.held = [] := rfl

@[simp] theorem flushed_keys (x : Session) (sts : List Stmt) :
    (x.flushed sts).keys = x.keys ++ keysOf sts := keysOf_append x.held sts

@[simp] theorem stamped_keys (x : Session) (t : Time) : (x.stamped t).keys = x.keys := rfl

/-- With nothing open there is no lock. -/
theorem keys_of_held {x : Session} (h : x.held = []) : x.keys = [] := by
  rw [keys, h, keysOf_nil]

/-- The statements may be flushed as far as the audit trail is concerned. -/
structure Audits (x : Session) (sts : List Stmt) : Prop where
  /-- They record one event at most. -/
  single : (rowsOf sts).length ≤ 1
  /-- It carries the time that was read for it. -/
  timed : ∀ row ∈ rowsOf sts, x.stamp = some row.createdAt
  /-- If it is a change of a status, it is one of a case whose row is held. -/
  locked : ∀ row ∈ rowsOf sts, row.body.isChange = true →
    ∃ caseId, row.entity = .recoveryCase caseId ∧ .recoveryCase caseId ∈ x.keys

/-- Statements on other tables may be flushed at any time. -/
theorem Audits.of_tables {x : Session} {sts : List Stmt}
    (h : ∀ st ∈ sts, st.table ≠ .auditEvents) : x.Audits sts := by
  -- Without an event in the statements, nothing is asked of them.
  have hnone : ∀ row, row ∉ rowsOf sts := by
    rw [rowsOf_of_tables h]
    exact fun _ => List.not_mem_nil
  refine ⟨?_, fun row hrow => absurd hrow (hnone row), fun row hrow => absurd hrow (hnone row)⟩
  rw [rowsOf_of_tables h]
  exact Nat.zero_le 1

/-- Every lock held is the one on the row of this case. -/
def Only (x : Session) (caseId : Uuid) : Prop := ∀ k ∈ x.keys, k = .recoveryCase caseId

/-- A session with nothing open holds no other lock. -/
theorem only_of_held {x : Session} (h : x.held = []) (caseId : Uuid) : x.Only caseId := by
  intro k hk
  rw [keys_of_held h] at hk
  cases hk

/-- Nor after a flush that locks this row only. -/
theorem Only.flushed {x : Session} {caseId : Uuid} (h : x.Only caseId) {sts : List Stmt}
    (hsts : ∀ k ∈ keysOf sts, k = .recoveryCase caseId) : (x.flushed sts).Only caseId := by
  intro k hk
  rw [flushed_keys, List.mem_append] at hk
  exact hk.elim (h k) (hsts k)

end Session

/-- An exception that is caught inside a cycle is raised with nothing open. -/
def Raised.Clears (op : Op) (x : Session) : Raised → Prop
  | .recoverAI _ => op.cycles = true → x.held = []
  | _ => True

/-- **The discipline** of an operation. -/
def discipline (op : Op) : Monitor sig Session where
  allows x
    | .flush sts =>
      -- A call is made with nothing open at all.
      Locking.InOrder RowKey.rank op.sweeps x.keys (keysOf sts) ∧ x.Audits sts
    | .getRecommendation _ => ∃ caseId, x.Only caseId
    | .createPaymentLink _ _ => x.held = []
    -- The search has the event of the ambiguous answer open, which locks nothing.
    | .findPaymentLinkByReference _ => x.keys = []
    | _ => True
  expects x
    -- A remote party that raises a domain error would leave what is open to the next case of the
    -- cycle; it is expected not to.
    | .getRecommendation _, .error e => e.Clears op x
    | .createPaymentLink _ _, .error (.other e) => e.Clears op x
    | .findPaymentLinkByReference _, .error (.other e) => e.Clears op x
    | _, _ => True
  next x
    | .flush sts, .ok _ => x.flushed sts
    -- A failed flush has lost the transaction.
    | .flush _, .error _ => .idle
    | .commit, _ => .idle
    | .rollback, _ => .idle
    -- A reading replaces the one before it.
    | .now, t => x.stamped t
    | _, _ => x

/-- From the session `x` the service keeps the discipline. If it returns `a` with the session
`y`, then `Q a y`; what it raises clears the session. -/
def Service.Keeps {α : Type} (op : Op) (Q : α → Session → Prop) (s : Service α)
    (x : Session) : Prop :=
  s.run.Obeys (discipline op) (fun r y => match r with
    | .ok a => Q a y
    | .error e => e.Clears op y) x

namespace Service.Keeps

variable {α β : Type} {op : Op} {Q : α → Session → Prop} {s : Service α} {x : Session}

/-- A service that returns. -/
theorem pure {a : α} (h : Q a x) : Service.Keeps op Q (Pure.pure a) x := h

/-- A service that raises. -/
theorem throw {e : Raised} (h : e.Clears op x) : Service.Keeps op Q (MonadExcept.throw e) x := h

/-- A domain error, with nothing open. -/
theorem raise {e : RecoverAIError} (h : x.held = []) : Service.Keeps op Q (Service.raise e) x :=
  fun _ => h

/-- A weaker account. -/
theorem mono {Q' : α → Session → Prop} (h : s.Keeps op Q x) (hQ : ∀ a y, Q a y → Q' a y) :
    s.Keeps op Q' x := by
  refine Prog.Obeys.mono h fun r y hr => ?_
  cases r with
  | ok a => exact hQ a y hr
  | error e => exact hr

/-- Sequencing: the rest starts with the session that is left. -/
theorem bind {f : α → Service β} {Q : β → Session → Prop}
    (h : s.Keeps op (fun a y => (f a).Keeps op Q y) x) : (s >>= f).Keeps op Q x := by
  unfold Service.Keeps
  rw [ExceptT.run_bind, Prog.obeys_bind]
  refine Prog.Obeys.mono h fun r y hr => ?_
  cases r with
  | ok a => exact hr
  | error e => exact hr

/-- A result that is only transformed. -/
theorem map {f : α → β} {Q : β → Session → Prop} (h : s.Keeps op (fun a y => Q (f a) y) x) :
    (f <$> s).Keeps op Q x := by
  rw [← bind_pure_comp]
  exact .bind (h.mono fun _ _ hQ => .pure hQ)

/-- Handlers start with the session the exception has left. -/
theorem tryCatch {f : Raised → Service α} (h : s.Keeps op Q x)
    (hf : ∀ e y, e.Clears op y → (f e).Keeps op Q y) :
    (MonadExcept.tryCatch s f).Keeps op Q x := by
  -- The rule of a try block for programs, at the empty continuation.
  have hrun := run_tryCatch_bind s f Prog.done
  rw [show Prog.done = (Pure.pure : Except Raised α → Prog sig _) from rfl, bind_pure] at hrun
  unfold Service.Keeps
  rw [hrun, Prog.obeys_bind]
  refine Prog.Obeys.mono h fun r y hr => ?_
  cases r with
  | ok a => exact hr
  | error e =>
    change Prog.Obeys _ _ ((f e).run >>= Pure.pure) y
    rw [bind_pure]
    exact hf e y hr

/-- Either branch keeps it. -/
theorem ite {c : Prop} [Decidable c] {s' : Service α} (hs : c → s.Keeps op Q x)
    (hs' : ¬ c → s'.Keeps op Q x) : (if c then s else s').Keeps op Q x := by
  split
  · next hc => exact hs hc
  · next hc => exact hs' hc

/-! Commands -/

/-- A select takes no lock. -/
theorem select {q : Query} {Q : q.Result → Session → Prop} (h : ∀ r, Q r x) :
    (Service.select q).Keeps op Q x := ⟨trivial, fun r _ => h r⟩

/-- The clock is read. -/
theorem now {Q : Time → Session → Prop} (h : ∀ t, Q t (x.stamped t)) : Service.now.Keeps op Q x :=
  ⟨trivial, fun t _ => h t⟩

/-- An id is drawn. -/
theorem uuid4 {Q : Uuid → Session → Prop} (h : ∀ id, Q id x) : Service.uuid4.Keeps op Q x :=
  ⟨trivial, fun id _ => h id⟩

/-- The settings are read. -/
theorem getSettings {Q : Settings → Session → Prop} (h : ∀ settings, Q settings x) :
    Service.getSettings.Keeps op Q x := ⟨trivial, fun settings _ => h settings⟩

/-- A commit closes the session. -/
theorem commit {Q : Unit → Session → Prop} (h : Q () .idle) : Service.commit.Keeps op Q x :=
  ⟨trivial, fun _ _ => h⟩

/-- So does a rollback. -/
theorem rollback {Q : Unit → Session → Prop} (h : Q () .idle) : Service.rollback.Keeps op Q x :=
  ⟨trivial, fun _ _ => h⟩

/-- A flush in the order of the ranks, with its audit event. -/
theorem flush {sts : List Stmt} {Q : Unit → Session → Prop}
    (horder : Locking.InOrder RowKey.rank op.sweeps x.keys (keysOf sts)) (haudits : x.Audits sts)
    (h : Q () (x.flushed sts)) : (Service.flush sts).Keeps op Q x := by
  refine .bind ⟨⟨horder, haudits⟩, fun r _ => ?_⟩
  cases r with
  | ok _ => exact h
  -- Neither error of the database is one that a cycle catches.
  | error e => cases e <;> exact trivial

/-- A check that may raise is made with nothing open. -/
theorem ofExcept {r : Except RecoverAIError α} (h : ∀ a, r = .ok a → Q a x)
    (he : ∀ e, r = .error e → x.held = []) : (Service.ofExcept r).Keeps op Q x := by
  cases r with
  | ok a => exact .pure (h a rfl)
  | error e => exact .raise (he e rfl)

/-- Two rows raise what no cycle catches. -/
theorem scalarOneOrNone {Q : Option α → Session → Prop} (h : ∀ a, Q a x) :
    ∀ rows : List α, (Service.scalarOneOrNone rows).Keeps op Q x
  | [] => .pure (h none)
  | [a] => .pure (h (some a))
  | _ :: _ :: _ => .throw trivial

/-- The guard rolls back before it raises a domain error. -/
theorem guardAgainstConcurrentModification (h : s.Keeps op Q x) :
    (RecoverAI.guardAgainstConcurrentModification s).Keeps op Q x := by
  refine h.tryCatch fun e y hy => ?_
  cases e with
  -- A stale version is a domain error from here on, and the rollback before it has closed the
  -- session.
  | staleData => exact .bind (.rollback (.raise rfl))
  | _ => exact .throw hy

/-- What is caught of a service in a cycle is a domain error, with nothing open. -/
theorem catchRecoverAI (hop : op.cycles = true) {Q : Except RecoverAIError α → Session → Prop}
    (h : s.Keeps op (fun a y => Q (.ok a) y) x)
    (he : ∀ e y, y.held = [] → Q (.error e) y) : (RecoverAI.catchRecoverAI s).Keeps op Q x := by
  refine h.map.tryCatch fun e y hy => ?_
  cases e with
  -- It is a cycle that catches here, so nothing was open when the error was raised.
  | recoverAI e => exact .pure (he e y (hy hop))
  | _ => exact .throw hy

end Service.Keeps

end RecoverAI
