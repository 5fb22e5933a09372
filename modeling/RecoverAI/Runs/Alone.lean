import RecoverAI.Refinement.Accounts
import RecoverAI.Runs.History
import RecoverAI.Services.Lone

/-!
# Operations that run alone

An operation that no other one interrupts (`Machine.perform?`) leaves its events in one
piece on top of the record that was there (`alone_of_perform?`). So its own record says
what it has found and done: the database stays as it was until the operation commits.
-/

namespace RecoverAI

open Interleave

/-- A reachable state without open transactions is idle. -/
theorem Reachable.idle {w : World} (hw : Reachable w) (h : w.shared.pending = []) : Idle w.shared where
  pending := h
  distinct := by
    rw [Reachable.db_eq hw]
    exact (Reachable.lawful hw).distinct

/-! ### The database after some events -/

/-- The database after the events `es`, newest first. -/
def Db.after (db : Db) (es : List Event) : Db := es.foldr Event.applyTo db

@[simp] theorem Db.after_nil (db : Db) : db.after [] = db := rfl

@[simp] theorem Db.after_cons (db : Db) (e : Event) (es : List Event) :
    db.after (e :: es) = e.applyTo (db.after es) := rfl

/-- Without a commit the database stays. -/
theorem Db.after_of_commits {es : List Event} (db : Db) (h : commits es = []) : db.after es = db := by
  induction es with
  | nil => rfl
  | cons e es ih =>
    cases e with
    | committed sts => cases h
    | _ => exact ih h

theorem History.replay_map_append (es : List Event) (t : Tid) (H : History) :
    replay (es.map (fun e => (t, e)) ++ H) = H.replay.after es := by
  induction es with
  | nil => rfl
  | cons e es ih =>
    rw [List.map_cons, List.cons_append, replay_cons, Db.after_cons, ih]

theorem History.own_map (es : List Event) (t : Tid) :
    own (es.map fun e => (t, e)) t = es := by
  induction es with
  | nil => rfl
  | cons e es ih => rw [List.map_cons, own_cons_self, ih]

theorem commits_append (h h' : List Event) : commits (h ++ h') = commits h ++ commits h' := by
  induction h with
  | nil => rfl
  | cons e h ih =>
    cases e with
    | committed sts => exact congrArg (sts :: ·) ih
    | _ => exact ih

section Exec

variable {t : Tid} {s s' : State}

/-- A command leaves at most one event. -/
theorem events_of_exec {c : Cmd} {i : Input} {r : c.Reply} (he : exec t c i s = some (r, s')) :
    ∃ es : List Event, s'.history = es.map (fun e => (t, e)) ++ s.history := by
  rcases history_of_exec he with hh | ⟨e, -, hh⟩
  · exact ⟨[], hh⟩
  · exact ⟨[e], hh⟩

/-- So what runs alone leaves its events in one piece, by induction on the program. -/
theorem history_of_solo {α : Type} {p : Prog sig α} {is is' : List Input} {r : α}
    (h : machine.solo t p s is = some (r, s', is')) :
    ∃ es : List Event, s'.history = es.map (fun e => (t, e)) ++ s.history := by
  induction p generalizing s is with
  | done a =>
    rw [Machine.solo_done, Option.some.injEq, Prod.mk.injEq, Prod.mk.injEq] at h
    obtain ⟨-, rfl, -⟩ := h
    exact ⟨[], rfl⟩
  | call c k ih =>
    cases is with
    | nil => cases h
    | cons i is =>
      rw [Machine.solo] at h
      split at h
      · next q s₁ he =>
        obtain ⟨es, hes⟩ := events_of_exec (machine_exec_eq_some.mp he).1
        obtain ⟨es', hes'⟩ := ih q h
        exact ⟨es' ++ es, by rw [hes', hes, List.map_append, List.append_assoc]⟩
      · cases h

theorem history_of_perform? {op : Op} {is : List Input} {r : Outcome}
    (h : machine.perform? t op is s = some (r, s')) :
    ∃ es : List Event, s'.history =
      (t, .ended (some r)) :: (es.map (fun e => (t, e)) ++ (t, .started op) :: s.history) := by
  rw [Machine.perform?] at h
  split at h
  · next r' s₁ hsolo =>
    rw [Option.some.injEq, Prod.mk.injEq] at h
    obtain ⟨rfl, rfl⟩ := h
    obtain ⟨es, hes⟩ := history_of_solo hsolo
    refine ⟨es, ?_⟩
    change (t, Event.ended (some r')) :: s₁.history = _
    rw [hes]
    rfl
  · cases h

end Exec

/-! ### On the open machine -/

section Open

variable {t : Tid} {s : State}

/-- Where no cycle has been started nothing spills, by induction on the program. -/
theorem solo_open {α : Type} {p : Prog sig α} {is : List Input}
    (hown : (s.own t).any Event.startsCycle = false) :
    openMachine.solo t p s is = machine.solo t p s is := by
  induction p generalizing s is with
  | done a => rw [Machine.solo_done, Machine.solo_done]
  | call c k ih =>
    cases is with
    | nil => rfl
    | cons i is =>
      have hspills : s.spills t i = false := by
        rw [State.spills, hown, Bool.and_false, Bool.false_and]
      have hexec : machine.exec t c i s = openMachine.exec t c i s := by
        change (if s.spills t i then none else exec t c i s) = _
        rw [hspills]
        rfl
      rw [Machine.solo, Machine.solo, hexec]
      split
      · next r s' he =>
        refine ih r ?_
        obtain ⟨hsame | ⟨e, he, hmore⟩, -⟩ := part_of_exec he
        · rw [hsame]
          exact hown
        · rw [hmore, List.any_cons, hown, Bool.or_false]
          cases e <;> first | rfl | cases he
      · rfl

/-- **An operation that is no cycle runs alone on the open machine as it does on the other.** -/
theorem perform?_open {op : Op} {is : List Input} (hop : (Event.started op).startsCycle = false)
    (hown : s.own t = []) : openMachine.perform? t op is s = machine.perform? t op is s := by
  have hstarted : ((s.emit t (.started op)).own t).any Event.startsCycle = false := by
    rw [State.own_emit_self, hown, List.any_cons, hop]
    rfl
  have hsolo : openMachine.solo t (openMachine.body op) (openMachine.start t op s) is =
      machine.solo t (machine.body op) (machine.start t op s) is := solo_open hstarted
  rw [Machine.perform?, Machine.perform?, hsolo]
  rfl

end Open

/-! ### What runs alone -/

/-- The operation `op` has run alone on the record `H`, as thread `t`, with outcome `r` and
the events `es`. -/
structure Alone (H : History) (t : Tid) (op : Op) (r : Outcome) (es : List Event) (H' : History) :
    Prop where
  record : H' = (t, .ended (some r)) :: (es.map (fun e => (t, e)) ++ (t, .started op) :: H)
  lawful : Lawful H'

/-- **An operation performed alone in a reachable world.** -/
theorem alone_of_perform? {w : World} (hw : Reachable w) {op : Op} {is : List Input} {r : Outcome}
    {s' : State} (h : machine.perform? w.threads.length op is w.shared = some (r, s')) :
    ∃ es, Alone w.shared.history w.threads.length op r es s'.history ∧
      s'.db = History.replay s'.history := by
  obtain ⟨es, hes⟩ := history_of_perform? h
  have hw' : Reachable ⟨s', w.threads ++ [⟨op, none⟩]⟩ := hw.trans (Machine.reaches_of_perform? h)
  exact ⟨es, ⟨hes, Reachable.lawful hw'⟩, Reachable.db_eq hw'⟩

namespace Alone

variable {H H' : History} {t : Tid} {op : Op} {r : Outcome} {es : List Event}

section Parts

variable (ha : Alone H t op r es H')
include ha

theorem lawful_started : Lawful ((t, .started op) :: H) := by
  have hl := ha.lawful
  rw [ha.record] at hl
  exact hl.cons_inv.1.of_append

/-- The thread is new. -/
theorem own_eq_nil : H.own t = [] := ha.lawful_started.cons_inv.2.1

theorem before : Lawful H := ha.lawful_started.cons_inv.1

/-- Everything the thread has in the record is from this run. -/
theorem own_eq : H'.own t = .ended (some r) :: (es ++ [.started op]) := by
  rw [ha.record, History.own_cons_self, History.own_append, History.own_map,
    History.own_cons_self, ha.own_eq_nil]

theorem mem {e : Event} (he : e ∈ es) : (t, e) ∈ H' := by
  rw [← History.mem_own, ha.own_eq]
  exact List.mem_cons_of_mem _ (List.mem_append_left _ he)

theorem replay_eq : H'.replay = H.replay.after es := by
  rw [ha.record, History.replay_cons, History.replay_map_append]
  rfl

/-- What an event of the run was permitted by: what the run had done so far. -/
theorem permitted {newer older : List Event} {e : Event} (hes : es = newer ++ e :: older) :
    Permitted (older ++ [.started op]) (H.replay.after older) e := by
  have hl := ha.lawful
  rw [ha.record, hes, List.map_append, List.map_cons, List.append_assoc, List.cons_append] at hl
  have hp := hl.cons_inv.1.of_append.cons_inv.2.1
  rw [History.own_append, History.own_map, History.own_cons_self, ha.own_eq_nil,
    History.replay_map_append] at hp
  exact hp

theorem ended : Ended (es ++ [.started op]) (H.replay.after es) r := by
  have hl := ha.lawful
  rw [ha.record] at hl
  have hp := hl.cons_inv.2.1
  rw [History.own_append, History.own_map, History.own_cons_self, ha.own_eq_nil,
    History.replay_map_append] at hp
  exact hp

/-- A select before the first commit is answered from the database as it was. -/
theorem eval_of_selected {newer older : List Event} {q : Query} {result : q.Result}
    (hes : es = newer ++ .selected q result :: older) (hcommits : commits older = []) :
    ∃ ranking, result = q.eval H.replay ranking := by
  have hp := ha.permitted hes
  rw [H.replay.after_of_commits hcommits] at hp
  exact hp

end Parts

end Alone

end RecoverAI
