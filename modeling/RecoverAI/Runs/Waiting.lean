import RecoverAI.Framework.Draining
import RecoverAI.Refinement.Accounts
import RecoverAI.Refinement.Sessions
import RecoverAI.Runs.Schedules

/-!
# Waiting

An operation waits where it flushes statements whose locks another open transaction holds.
The monitors of the sessions (`discipline`) know what each session has open, so in every
reachable state locks are asked for in the order of their ranks (`Reachable.ranked`): an
operation that waits in a circle is a discovery sweep or a recovery cycle
(`sweeping_of_circle`). As long as none waits in a circle, and with one of them at a time
none does, some live operation can always go on (`quiescent_of_stuck`).

The database does not leave a circle alone. It aborts one of the transactions in it, and as
no service catches that error, the operation ends as if it had crashed.

The monitors also say where no transaction is open: when the provider is called, and when an
operation returns.
-/

namespace RecoverAI

open Interleave Relation

variable {w w' : World} {t u : Tid}

/-! ### What a session has open -/

/-- An operation that returns, or raises what a cycle may catch in it, has nothing open. -/
def Outcome.Clears (op : Op) : Outcome → Session → Prop
  | .ok _, y => y.held = []
  | .error e, y => e.Clears op y

/-- A command moves the monitor of its session as it moves the transaction, and leaves the
other transactions alone. -/
theorem pendingOf_of_exec (op : Op) {c : Cmd} {i : Input} {r : c.Reply} {s s' : State}
    {x : Session} (he : exec t c i s = some (r, s')) (hx : x.held = s.pendingOf t) :
    ((discipline op).next x c r).held = s'.pendingOf t ∧
      ∀ u, u ≠ t → s'.pendingOf u = s.pendingOf u := by
  cases c <;> cases i <;> simp only [exec] at he <;> try cases he
  case flush.go sts =>
    split at he <;> cases he
    · next y hy =>
      obtain ⟨-, ⟨e, he, -⟩ | ⟨-, -, rfl⟩⟩ := Txns.flush_cases hy
      · cases he
      · refine ⟨?_, fun u hu => Txns.enlist_pendingOf_ne hu⟩
        change x.held ++ sts = (s.toTxns.enlist t sts).pendingOf t
        rw [hx, Txns.enlist_pendingOf]
    · next e y hy =>
      obtain ⟨-, ⟨-, -, -, rfl⟩ | ⟨he, -⟩⟩ := Txns.flush_cases hy
      · exact ⟨(Txns.rollback_pendingOf _ t).symm, fun u hu => Txns.rollback_pendingOf_ne hu⟩
      · cases he
  case commit.go =>
    exact ⟨(Txns.commit_pendingOf _ t).symm, fun u hu => Txns.commit_pendingOf_ne hu⟩
  case rollback.go =>
    exact ⟨(Txns.rollback_pendingOf _ t).symm, fun u hu => Txns.rollback_pendingOf_ne hu⟩
  case createPaymentLink.created =>
    split at he <;> cases he
    exact ⟨hx, fun _ _ => rfl⟩
  all_goals exact ⟨hx, fun _ _ => rfl⟩

/-- Nothing spills, so what a remote party raises is what the discipline expects. -/
theorem expects_of_exec (hw : Reachable w) {op : Op} {c : Cmd} {k : c.Reply → Prog sig Outcome}
    {i : Input} {r : c.Reply} {s : State} {x : Session}
    (ht : w.threads[t]? = some ⟨op, some (.call c k)⟩)
    (he : machine.exec t c i w.shared = some (r, s)) (hx : x.held = w.shared.pendingOf t) :
    (discipline op).expects x c r := by
  obtain ⟨he, hspills⟩ := machine_exec_eq_some.mp he
  -- a domain error that reaches a cycle finds nothing flushed
  have hclears : ∀ e : Raised, (∀ e', e = .recoverAI e' → i.raisesRecoverAI = true) →
      e.Clears op x := by
    intro e hraises
    cases e with
    | recoverAI e' =>
      intro hcycles
      have hstarts : (w.shared.own t).any Event.startsCycle = true := by
        refine List.any_eq_true.mpr ⟨_, started_of_alive hw.opened ht, ?_⟩
        cases op <;> first | rfl | cases hcycles
      rw [State.spills, hraises e' rfl, hstarts, Bool.true_and, Bool.true_and, Bool.not_eq_false',
        List.isEmpty_iff] at hspills
      exact hx.trans hspills
    | _ => trivial
  cases c <;> cases i <;> simp only [exec] at he <;> try cases he
  case getRecommendation.recommendation =>
    cases r with
    | ok a => trivial
    | error e => exact hclears e fun e' he => by rw [he]; rfl
  case createPaymentLink.created =>
    split at he <;> cases he
    cases r with
    | ok link => trivial
    | error e =>
      cases e with
      | paymentProvider e => trivial
      | other e => exact hclears e fun e' he => by rw [he]; rfl
  case findPaymentLinkByReference.found =>
    cases r with
    | ok link => trivial
    | error e =>
      cases e with
      | paymentProvider e => trivial
      | other e => exact hclears e fun e' he => by rw [he]; rfl
  all_goals trivial

theorem Op.obeys_discipline (op : Op) :
    (machine.body op).Obeys (discipline op) (Outcome.Clears op) Session.idle := by
  refine Prog.Obeys.mono op.keeps_service fun r y hr => ?_
  cases r with
  | ok _ => exact hr
  | error e => exact hr

/-- Every session of a reachable state keeps the discipline from what it has open. -/
theorem Reachable.watched (hw : Reachable w) : ∃ g : Tid → Session,
    Machine.Watched discipline Outcome.Clears Session.idle g w ∧
      ∀ t, (g t).held = w.shared.pendingOf t := by
  refine Machine.invariant_of_obeys (I := fun (g : Tid → Session) (s : State) => ∀ t, (g t).held = s.pendingOf t)
    Op.obeys_discipline (fun _ => rfl) (fun _ _ _ _ hI _ => hI) ?_ ?_ ?_ hw
  · intro g w t op c k i r s hreach _ hI ht he
    exact expects_of_exec hreach ht he (hI t)
  · intro g w t op c i r s _ _ hI _ he u
    obtain ⟨hself, hothers⟩ := pendingOf_of_exec op (machine_exec_eq_some.mp he).1 (hI t)
    by_cases hu : u = t
    · subst hu
      rw [Function.update_self]
      exact hself
    · rw [Function.update_of_ne hu, hI u]
      exact (hothers u hu).symm
  · intro g t outcome s hI u
    by_cases hu : u = t
    · subst hu
      rw [Function.update_self]
      exact (Txns.rollback_pendingOf s.toTxns u).symm
    · rw [Function.update_of_ne hu, hI u]
      exact (Txns.rollback_pendingOf_ne hu).symm

/-! ### The order of the locks -/

namespace World

/-- The locks the next command of a session asks for. -/
def wanted (w : World) (t : Tid) : List RowKey :=
  match w.prog? t with
  | some (.call (Cmd.flush sts) _) => keysOf sts
  | _ => []

/-- Who holds which locks, and who wants which. -/
def locking (w : World) : Locking Tid RowKey where
  holds t k := k ∈ keysOf (w.shared.pendingOf t)
  wants t k := k ∈ w.wanted t

/-- A live discovery sweep or recovery cycle. A cycle counts for its whole life, also after
its sweep is committed. -/
def Sweeping (w : World) (t : Tid) : Prop :=
  ∃ th ∈ w.threads[t]?, th.prog.isSome = true ∧ th.op.sweeps = true

instance (w : World) (t : Tid) : Decidable (w.Sweeping t) := by
  unfold Sweeping
  infer_instance

theorem lt_of_sweeping (h : w.Sweeping t) : t < w.threads.length := by
  obtain ⟨th, hth, -⟩ := h
  exact (List.getElem?_eq_some_iff.mp hth).1

end World

theorem World.exists_of_wanted {k : RowKey} (h : k ∈ w.wanted t) :
    ∃ sts rest op, k ∈ keysOf sts ∧ w.threads[t]? = some ⟨op, some (.call (Cmd.flush sts) rest)⟩ := by
  unfold wanted at h
  split at h
  · next sts rest hp =>
    obtain ⟨⟨op, prog⟩, hthread, hprog⟩ := Option.bind_eq_some_iff.mp hp
    obtain rfl : prog = _ := hprog
    exact ⟨sts, rest, op, h, hthread⟩
  · cases h

/-- **Locks are asked for in order**, in every reachable state. -/
theorem Reachable.ranked (hw : Reachable w) : w.locking.Ranked RowKey.rank w.Sweeping := by
  obtain ⟨g, hwatched, hheld⟩ := hw.watched
  -- what the discipline has to say about a lock that is wanted and not held
  have hasks : ∀ t k, k ∈ w.wanted t → k ∉ keysOf (w.shared.pendingOf t) →
      ∀ h ∈ keysOf (w.shared.pendingOf t), h.rank < k.rank ∨ w.Sweeping t ∧ h.rank = k.rank := by
    intro t k hk hnot h hh
    obtain ⟨sts, rest, op, hk, hthread⟩ := World.exists_of_wanted hk
    obtain ⟨⟨horder, -⟩, -⟩ := hwatched.alive t op _ hthread
    rw [Session.keys, hheld] at horder
    rcases horder k hk with hk | hk
    · exact absurd hk hnot
    · exact (hk h hh).imp id (And.imp_left fun hsweeps => ⟨_, hthread, rfl, hsweeps⟩)
  refine ⟨fun t u k ht hu => ?_, fun t k hk hnot h hh => ?_, fun t k hk hnot hlax h hh => ?_⟩
  · -- two transactions with one lock are one transaction
    by_contra htu
    obtain ⟨st, hst, hk⟩ := mem_keysOf.mp ht
    obtain ⟨st', hst', hk'⟩ := mem_keysOf.mp hu
    exact (Reachable.recorded hw).consistent.isolated.disjoint t u st st' (Txns.mem_pendingOf.mp hst)
      (Txns.mem_pendingOf.mp hst') htu k hk hk'
  · exact (hasks t k hk hnot h hh).elim Nat.le_of_lt fun hor => hor.2.le
  · exact (hasks t k hk hnot h hh).resolve_right fun hor => hlax hor.1

/-- **Only discovery sweeps and recovery cycles wait in a circle.** -/
theorem sweeping_of_circle (hw : Reachable w) (h : TransGen w.locking.WaitsFor t t) :
    w.Sweeping t :=
  hw.ranked.lax_of_cycle h

namespace Sample

/-- Two failed payments of the same time, ingested without cases. -/
def twoUncased : List Action :=
  uncased ++ alone 1 (.ingest { request with autoCreateCase := false } "c")
    ([.uuid 3, .go, .uuid 4, .time 0, .time 0, .go] ++ audit ++ [.go])

/-- A sweep opens case `c` and goes on. -/
def openNext (c : Uuid) : List Input := [.uuid c, .time 0, .go] ++ audit

/-- Two sweeps take the two payments up in opposite orders. -/
def circle : List Action :=
  twoUncased ++ [.start (.discover 100 "c"), .start (.discover 100 "c")] ++
    part 2 ([.ranking [2, 4], .ranking []] ++ openNext 5) ++
    part 3 ([.ranking [4, 2], .ranking []] ++ openNext 6) ++
    part 2 [.uuid 7, .time 0] ++ part 3 [.uuid 8, .time 0]

/-- A sweep has opened the case of the first payment when a call asks for it, too. -/
def behindSweep : List Action :=
  twoUncased ++ [.start (.discover 100 "c"), .start (.createCase 2 "c")] ++
    part 2 ([.ranking [2, 4], .ranking []] ++ openNext 5) ++
    part 3 [.ranking [], .ranking [], .uuid 6, .time 0]

/-- An execution is about to call the provider. -/
def calling : List Action :=
  approved ++ [.start (.execute 3 "c")] ++ part 2 (claim ++ attempt 10 11 ++ [.time 0])

end Sample

set_option maxRecDepth 10000 in
/-- Two sweeps can wait for each other. -/
theorem sweeping_of_circle_circle :
    TransGen (World.empty.after Sample.circle).locking.WaitsFor 2 2 ∧
      (World.empty.after Sample.circle).Sweeping 2 := by
  have hfirst : (World.empty.after Sample.circle).locking.WaitsFor 2 3 :=
    ⟨by decide, .casePayment 4, by
      change RowKey.casePayment 4 ∈ (World.empty.after Sample.circle).wanted 2
      decide +kernel, by
      change RowKey.casePayment 4 ∈ keysOf ((World.empty.after Sample.circle).shared.pendingOf 3)
      decide +kernel⟩
  have hsecond : (World.empty.after Sample.circle).locking.WaitsFor 3 2 :=
    ⟨by decide, .casePayment 2, by
      change RowKey.casePayment 2 ∈ (World.empty.after Sample.circle).wanted 3
      decide +kernel, by
      change RowKey.casePayment 2 ∈ keysOf ((World.empty.after Sample.circle).shared.pendingOf 2)
      decide +kernel⟩
  have hcircle := TransGen.tail (.single hfirst) hsecond
  exact ⟨hcircle, sweeping_of_circle (World.reachable_after _) hcircle⟩

/-! ### Going on -/

/-- A flush is blocked where its operation waits for another one. -/
theorem World.blocked_iff {op : Op} {sts : List Stmt} {rest : Except DbError Unit → Prog sig Outcome}
    (ht : w.threads[t]? = some ⟨op, some (.call (Cmd.flush sts) rest)⟩) :
    w.shared.toTxns.Blocked t sts ↔ ∃ u, w.locking.WaitsFor t u := by
  have hwanted : w.wanted t = keysOf sts := by
    rw [World.wanted, Interleave.World.prog?, ht]
    rfl
  constructor
  · rintro ⟨⟨u, st'⟩, hp, k, hk', st, hst, hk⟩
    obtain ⟨hp, hut⟩ := Txns.mem_others.mp hp
    refine ⟨u, fun htu => hut htu.symm, k, ?_, mem_keysOf.mpr ⟨st', Txns.mem_pendingOf.mpr hp, hk'⟩⟩
    change k ∈ w.wanted t
    rw [hwanted]
    exact mem_keysOf.mpr ⟨st, hst, hk⟩
  · rintro ⟨u, htu, k, hwants, hholds⟩
    change k ∈ w.wanted t at hwants
    rw [hwanted] at hwants
    obtain ⟨st, hst, hk⟩ := mem_keysOf.mp hwants
    obtain ⟨st', hst', hk'⟩ := mem_keysOf.mp hholds
    exact ⟨(u, st'), Txns.mem_others.mpr ⟨Txns.mem_pendingOf.mp hst', Ne.symm htu⟩, k, hk', st, hst, hk⟩

/-- Every command that is not a blocked flush can be answered, and without a domain error of a
remote party. -/
theorem exists_exec_of_not_blocked {s : State} (c : Cmd)
    (hfree : ∀ sts, c = .flush sts → ¬ s.toTxns.Blocked t sts) :
    ∃ i r s', machine.exec t c i s = some (r, s') := by
  suffices h : ∃ i r s', exec t c i s = some (r, s') ∧ i.raisesRecoverAI = false by
    obtain ⟨i, r, s', he, hraises⟩ := h
    exact ⟨i, r, s', machine_exec_of he hraises⟩
  cases c with
  | select query => exact ⟨.ranking [], _, _, rfl, rfl⟩
  | flush sts =>
    have hnot := hfree sts rfl
    cases hc : Store.checkAll sts (s.toTxns.view t) with
    | none => exact ⟨.go, .ok (), _, by simp only [exec, Txns.flush, if_neg hnot, hc]; rfl, rfl⟩
    | some e => exact ⟨.go, .error e, _, by simp only [exec, Txns.flush, if_neg hnot, hc]; rfl, rfl⟩
  | commit => exact ⟨.go, (), _, rfl, rfl⟩
  | rollback => exact ⟨.go, (), _, rfl, rfl⟩
  | now => exact ⟨.time 0, _, _, rfl, rfl⟩
  | uuid4 => exact ⟨.uuid 0, _, _, rfl, rfl⟩
  | getSettings => exact ⟨.settings Sample.settings, _, _, rfl, rfl⟩
  | getRecommendation context => exact ⟨.recommendation (.error (.other "")), _, _, rfl, rfl⟩
  | createPaymentLink caseId request =>
    exact ⟨.created none (.error (.other (.other ""))), _, _, rfl, rfl⟩
  | findPaymentLinkByReference referenceId => exact ⟨.found (.ok none), _, _, rfl, rfl⟩

/-- A live operation that waits for nobody can go on. -/
theorem World.proceeds_of_free {op : Op} {p : Prog sig Outcome}
    (ht : w.threads[t]? = some ⟨op, some p⟩) (hfree : ∀ u, ¬ w.locking.WaitsFor t u) :
    ∃ w', machine.Proceeds w w' := by
  cases p with
  | done outcome => exact ⟨_, .of_done ht⟩
  | call c rest =>
    have hnot : ∀ sts, c = .flush sts → ¬ w.shared.toTxns.Blocked t sts := by
      rintro sts rfl hblocked
      obtain ⟨u, hu⟩ := (World.blocked_iff ht).mp hblocked
      exact hfree u hu
    obtain ⟨i, r, s', he⟩ := exists_exec_of_not_blocked c hnot
    exact ⟨_, .of_exec ht he⟩

/-- **Somebody can go on**, as long as anything is alive and nobody waits in a circle. -/
theorem Reachable.exists_proceeds (hw : Reachable w) (hacyclic : w.locking.Acyclic)
    (hlive : ¬ w.Quiescent) : ∃ w', machine.Proceeds w w' := by
  -- the live operations: finitely many, and whoever holds a lock is one of them
  let live : Set Tid := {t | w.prog? t ≠ none}
  have hlt : ∀ t ∈ live, t < w.threads.length := by
    intro t ht
    by_contra hge
    exact ht (by rw [Interleave.World.prog?, List.getElem?_eq_none (Nat.not_lt.mp hge)]; rfl)
  have hfinite : live.Finite := (Set.finite_lt_nat w.threads.length).subset hlt
  have hnonempty : live.Nonempty := by
    by_contra hempty
    refine hlive fun th hth => ?_
    obtain ⟨t, ht⟩ := List.mem_iff_getElem?.mp hth
    by_contra hprog
    refine hempty ⟨t, fun hnone => hprog ?_⟩
    rwa [Interleave.World.prog?, ht] at hnone
  obtain ⟨g, hwatched, hheld⟩ := hw.watched
  have hclosed : ∀ t ∈ live, ∀ u, w.locking.WaitsFor t u → u ∈ live := by
    intro t _ u hwaits hnone
    obtain ⟨_, k, _, hholds⟩ := hwaits
    change k ∈ keysOf (w.shared.pendingOf u) at hholds
    rw [← hheld u, hwatched.resting u hnone] at hholds
    cases hholds
  obtain ⟨t, ht, hfree⟩ := hacyclic.exists_free hfinite hnonempty hclosed
  obtain ⟨p, hp⟩ := Option.ne_none_iff_exists'.mp ht
  obtain ⟨⟨op, prog⟩, hthread, rfl⟩ := Option.bind_eq_some_iff.mp hp
  exact World.proceeds_of_free hthread hfree

/-- Where nobody can go on, and nobody waits in a circle, everything has ended. -/
theorem Reachable.quiescent_of_stuck (hw : Reachable w) (hacyclic : w.locking.Acyclic)
    (hstuck : ∀ w', ¬ machine.Proceeds w w') : w.Quiescent := by
  by_contra hlive
  obtain ⟨w', hstep⟩ := hw.exists_proceeds hacyclic hlive
  exact hstuck w' hstep

/-- A sweep that is alive was alive before, or has just been started. -/
theorem World.Sweeping.of_step {a : Action} (h : machine.step w a = some w')
    (ht : w'.Sweeping t) :
    w.Sweeping t ∨ ∃ op, a = .start op ∧ op.sweeps = true ∧ t = w.threads.length := by
  obtain ⟨th, hth, hlive, hsweeps⟩ := ht
  -- a thread that ends sweeps no more, and one that goes on has not changed its operation
  have hset : ∀ {u : Tid} {old new : Thread sig Op Outcome}, w.threads[u]? = some old →
      w'.threads = w.threads.set u new →
      (new.prog.isSome = true → old.prog.isSome = true ∧ old.op = new.op) → w.Sweeping t := by
    intro u old new hu hw' hsame
    rw [hw'] at hth
    by_cases htu : t = u
    · subst htu
      rw [List.getElem?_set_self (List.getElem?_eq_some_iff.mp hu).1] at hth
      obtain rfl := Option.some.inj hth
      obtain ⟨hold, hop⟩ := hsame hlive
      exact ⟨old, hu, hold, hop ▸ hsweeps⟩
    · rw [List.getElem?_set_ne (Ne.symm htu)] at hth
      exact ⟨th, hth, hlive, hsweeps⟩
  obtain ⟨op, rfl, rfl⟩ | ⟨u, i, op, c, k, r, s, rfl, hu, he, rfl⟩ | ⟨u, op, r, rfl, hu, rfl⟩ |
    ⟨u, op, p, rfl, hu, rfl⟩ := Machine.step_cases h
  · rcases Nat.lt_or_ge t w.threads.length with hlt | hge
    · rw [List.getElem?_append_left hlt] at hth
      exact .inl ⟨th, hth, hlive, hsweeps⟩
    · rw [List.getElem?_append_right hge, List.getElem?_singleton] at hth
      split at hth
      · next hlast =>
        obtain rfl := Option.some.inj hth
        exact .inr ⟨op, rfl, hsweeps, Nat.le_antisymm (Nat.sub_eq_zero_iff_le.mp hlast) hge⟩
      · cases hth
  · exact .inl (hset hu rfl fun _ => ⟨rfl, rfl⟩)
  · exact .inl (hset hu rfl fun hsome => by cases hsome)
  · exact .inl (hset hu rfl fun hsome => by cases hsome)

theorem World.Sweeping.of_proceeds (h : machine.Proceeds w w') (ht : w'.Sweeping t) :
    w.Sweeping t := by
  obtain ⟨u, i, h⟩ | ⟨u, h⟩ := h
  · exact (ht.of_step h).resolve_right (by simp)
  · exact (ht.of_step h).resolve_right (by simp)

/-- What proceeds ends with an outcome, and is not killed. -/
theorem World.ended_of_proceeds (h : machine.Proceeds w w') (hlive : w.prog? t ≠ none)
    (hover : w'.prog? t = none) : ∃ outcome, (t, .ended (some outcome)) ∈ w'.shared.history := by
  -- a thread that is not the one of the step is as it was
  have hother : ∀ {u : Tid} {th : Thread sig Op Outcome}, t ≠ u →
      (w.threads.set u th)[t]?.bind Thread.prog ≠ none := by
    intro u th htu
    rwa [List.getElem?_set_ne (Ne.symm htu)]
  obtain ⟨u, i, h⟩ | ⟨u, h⟩ := h
  · obtain ⟨op, ha, -⟩ | ⟨u, i, op, c, k, r, s, -, hu, -, rfl⟩ | ⟨u, op, r, ha, -⟩ |
      ⟨u, op, p, ha, -⟩ := Machine.step_cases h <;> try cases ha
    by_cases htu : t = u
    · subst htu
      rw [Interleave.World.prog?, List.getElem?_set_self (List.getElem?_eq_some_iff.mp hu).1] at hover
      cases hover
    · exact absurd hover (hother htu)
  · obtain ⟨op, ha, -⟩ | ⟨u, i, op, c, k, r, s, ha, -⟩ | ⟨u, op, r, -, hu, rfl⟩ |
      ⟨u, op, p, ha, -⟩ := Machine.step_cases h <;> try cases ha
    by_cases htu : t = u
    · subst htu
      exact ⟨r, List.mem_cons_self⟩
    · exact absurd hover (hother htu)

/-- **Operations come to an end.** With one discovery sweep or recovery cycle alive at most, and
nothing new started, a run does not go on for ever, and where it cannot go on every operation
has delivered its outcome and no transaction is open. -/
theorem winds_down_of_one_sweep (hw : Reachable w)
    (hone : ∀ t u, w.Sweeping t → w.Sweeping u → t = u) :
    (∀ run : ℕ → World, run 0 = w → ∃ n, ¬ machine.Proceeds (run n) (run (n + 1))) ∧
      ∀ w' : World, ReflTransGen machine.Proceeds w w' → (∀ w'', ¬ machine.Proceeds w' w'') →
        w'.Quiescent ∧ w'.shared.pending = [] ∧
          ∀ t, w.prog? t ≠ none → ∃ outcome, (t, .ended (some outcome)) ∈ w'.shared.history := by
  refine ⟨fun run _ => Machine.exists_not_proceeds run, fun w' h hstuck => ?_⟩
  -- what holds at every state on the way
  have hway : Reachable w' ∧ (∀ t u, w'.Sweeping t → w'.Sweeping u → t = u) ∧
      ∀ t, w.prog? t ≠ none →
        w'.prog? t ≠ none ∨ ∃ outcome, (t, .ended (some outcome)) ∈ w'.shared.history := by
    clear hstuck
    induction h with
    | refl => exact ⟨hw, hone, fun t ht => .inl ht⟩
    | @tail v v' _ hstep ih =>
      obtain ⟨hv, hone, hends⟩ := ih
      have hv' := hstep.reaches
      refine ⟨hv.trans hv', fun t u ht hu => hone t u (ht.of_proceeds hstep) (hu.of_proceeds hstep),
        fun t ht => ?_⟩
      by_cases hover : v'.prog? t = none
      · rcases hends t ht with hlive | ⟨outcome, hended⟩
        · exact .inr (World.ended_of_proceeds hstep hlive hover)
        · exact .inr ⟨outcome, (extends_of_reaches hv hv').suffix.subset hended⟩
      · exact .inl hover
  obtain ⟨hw', hone', hends⟩ := hway
  have hquiet := hw'.quiescent_of_stuck (hw'.ranked.acyclic hone') hstuck
  refine ⟨hquiet, Reachable.pending_of_quiescent hw' hquiet, fun t ht => ?_⟩
  refine (hends t ht).resolve_left fun hlive => hlive ?_
  rw [Interleave.World.prog?]
  cases hth : w'.threads[t]? with
  | none => rfl
  | some th => exact hquiet th (List.mem_of_getElem? hth)

set_option maxRecDepth 10000 in
/-- The call that waits for the sweep is answered as well. -/
theorem winds_down_of_one_sweep_behindSweep :
    (World.empty.after Sample.behindSweep).locking.WaitsFor 3 2 ∧
      ∀ w' : World, ReflTransGen machine.Proceeds (World.empty.after Sample.behindSweep) w' →
        (∀ w'', ¬ machine.Proceeds w' w'') →
          ∃ outcome, (3, .ended (some outcome)) ∈ w'.shared.history := by
  have hwaits : (World.empty.after Sample.behindSweep).locking.WaitsFor 3 2 :=
    ⟨by decide, .casePayment 2, by
      change RowKey.casePayment 2 ∈ (World.empty.after Sample.behindSweep).wanted 3
      decide +kernel, by
      change RowKey.casePayment 2 ∈
        keysOf ((World.empty.after Sample.behindSweep).shared.pendingOf 2)
      decide +kernel⟩
  have honly : ∀ t < 4, (World.empty.after Sample.behindSweep).Sweeping t → t = 2 := by
    decide +kernel
  have hlength : (World.empty.after Sample.behindSweep).threads.length = 4 := by decide +kernel
  have hone : ∀ t u, (World.empty.after Sample.behindSweep).Sweeping t →
      (World.empty.after Sample.behindSweep).Sweeping u → t = u := by
    intro t u ht hu
    have hlt := World.lt_of_sweeping ht
    have hlt' := World.lt_of_sweeping hu
    rw [hlength] at hlt hlt'
    rw [honly t hlt ht, honly u hlt' hu]
  have hlive : ((World.empty.after Sample.behindSweep).prog? 3).isSome = true := by decide +kernel
  refine ⟨hwaits, fun w' h hstuck => ?_⟩
  exact ((winds_down_of_one_sweep (World.reachable_after _) hone).2 w' h hstuck).2.2 3
    (Option.isSome_iff_ne_none.mp hlive)

/-! ### Keeping out of circles -/

/-- What was started in a run that is over has ended. -/
theorem Reachable.ended_of_quiescent (hw : Reachable w) (hq : w.Quiescent) {e : Event}
    (he : (t, e) ∈ w.shared.history) : ∃ o, (t, .ended o) ∈ w.shared.history := by
  have he := History.mem_own.mpr he
  rcases Reachable.own_of_quiescent hw hq t with hown | ⟨o, older, hown⟩
  · rw [hown] at he
    cases he
  · exact ⟨o, History.mem_own.mp (by rw [hown]; exact List.mem_cons_self)⟩

/-- A step after which nobody waits in a circle. -/
def KeepsApart (w : World) (a : Action) : Prop :=
  ∀ w' : World, machine.step w a = some w' → w'.locking.Acyclic

/-- **What comes to an end**: no run goes on from here for ever, and if none goes on from here
at all, every operation that was started has ended. -/
structure WindsDown (w : World) : Prop where
  finite : ∀ run : ℕ → World, run 0 = w → ∃ n, ¬ machine.Proceeds (run n) (run (n + 1))
  ended : (∀ w', ¬ machine.Proceeds w w') → ∀ t op, (t, .started op) ∈ w.shared.history →
    ∃ o, (t, .ended o) ∈ w.shared.history

theorem windsDown_of_acyclic (hw : Reachable w) (hacyclic : w.locking.Acyclic) : WindsDown w where
  finite := fun run _ => Machine.exists_not_proceeds run
  ended := fun hstuck _ _ hst => hw.ended_of_quiescent (hw.quiescent_of_stuck hacyclic hstuck) hst

/-- In a run without circles nobody waits in one at its end. -/
theorem acyclic_of_keepsApart (h : machine.ReachesVia KeepsApart World.empty w) :
    w.locking.Acyclic := by
  cases h with
  | refl =>
    -- nothing has been flushed yet
    intro t ht
    obtain ⟨u, hwaits, -⟩ := TransGen.head'_iff.mp ht
    obtain ⟨-, k, -, hholds⟩ := hwaits
    cases hholds
  | tail _ hstep =>
    obtain ⟨a, hok, hstep⟩ := hstep
    exact hok _ hstep

/-- One sweep at a time: none is started while another one is alive. -/
def OneSweep (w : World) : Action → Prop
  | .start op => op.sweeps = true → ∀ th ∈ w.threads, th.prog.isSome = true → th.op.sweeps = false
  | _ => True

/-- A start is in order when it is no sweep's or no sweep is alive. -/
theorem oneSweep_start_iff {w : World} {op : Op} :
    (!op.sweeps || w.threads.all fun th => !th.prog.isSome || !th.op.sweeps) = true ↔
      OneSweep w (.start op) := by
  simp only [Bool.or_eq_true, Bool.not_eq_true', List.all_eq_true, OneSweep]
  refine ⟨fun h hop th hth hsome => ?_, fun h => ?_⟩
  · rcases h with hno | hall
    · exact absurd hop (by rw [hno]; exact Bool.false_ne_true)
    · exact (hall th hth).resolve_left (by rw [hsome]; exact Bool.noConfusion)
  · cases hop : op.sweeps with
    | false => exact .inl rfl
    | true =>
      refine .inr fun th hth => ?_
      cases hsome : th.prog.isSome with
      | false => exact .inl rfl
      | true => exact .inr (h hop th hth hsome)

instance (w : World) : (a : Action) → Decidable (OneSweep w a)
  | .start _ => decidable_of_iff _ oneSweep_start_iff
  | .run _ _ | .finish _ | .crash _ => .isTrue trivial

/-- Then one at most is alive. -/
theorem sweeping_eq_of_oneSweep (h : machine.ReachesVia OneSweep World.empty w) :
    ∀ t u, w.Sweeping t → w.Sweeping u → t = u := by
  induction h with
  | refl => exact fun t u ht => absurd (World.lt_of_sweeping ht) (Nat.not_lt_zero t)
  | @tail v v' _ hstep ih =>
    obtain ⟨a, hok, hstep⟩ := hstep
    -- beside a sweep that has just been started no other one is alive
    have hfresh : ∀ {t op}, a = .start op → op.sweeps = true → ¬ v.Sweeping t := by
      rintro t op rfl hsweeps ⟨th, hth, hlive, hth'⟩
      have := hok hsweeps th (List.mem_of_getElem? hth) hlive
      rw [hth'] at this
      cases this
    intro t u ht hu
    rcases ht.of_step hstep with ht | ⟨op, ha, hsweeps, rfl⟩ <;>
      rcases hu.of_step hstep with hu | ⟨op', ha', hsweeps', rfl⟩
    · exact ih t u ht hu
    · exact absurd ht (hfresh ha' hsweeps')
    · exact absurd hu (hfresh ha hsweeps)
    · rfl

/-- **One sweep at a time keeps apart**, whatever else a run satisfies. -/
theorem keepsApart_of_oneSweep {ok : World → Action → Prop}
    (h : machine.ReachesVia (fun w a => ok w a ∧ OneSweep w a) World.empty w) :
    machine.ReachesVia (fun w a => ok w a ∧ KeepsApart w a) World.empty w := by
  induction h with
  | refl => exact .refl
  | @tail v v' hv hstep ih =>
    obtain ⟨a, ⟨hok, hone⟩, hstep⟩ := hstep
    refine ih.tail ⟨a, ⟨hok, fun w' hw' => ?_⟩, hstep⟩
    have honly : machine.ReachesVia OneSweep World.empty v :=
      Machine.ReachesVia.mono (fun _ _ => And.right) hv
    have h' : machine.ReachesVia OneSweep World.empty w' := honly.tail ⟨a, hone, hw'⟩
    exact (Reachable.ranked h'.reaches).acyclic (sweeping_eq_of_oneSweep h')

/-! ### What is open where -/

/-- The command an operation performs next. -/
def World.next? (w : World) (t : Tid) : Option Cmd :=
  match w.prog? t with
  | some (.call c _) => some c
  | _ => none

theorem World.exists_of_next? {c : Cmd} (h : w.next? t = some c) :
    ∃ op rest, w.threads[t]? = some ⟨op, some (.call c rest)⟩ := by
  unfold next? at h
  split at h
  · next c' rest hp =>
    obtain rfl := Option.some.inj h
    obtain ⟨⟨op, prog⟩, hthread, rfl⟩ := Option.bind_eq_some_iff.mp hp
    exact ⟨op, rest, hthread⟩
  · cases h

/-- The payment provider is asked for a link. -/
def Cmd.isCreate : Cmd → Bool
  | .createPaymentLink _ _ => true
  | _ => false

/-- The payment provider is searched for a link. -/
def Cmd.isFind : Cmd → Bool
  | .findPaymentLinkByReference _ => true
  | _ => false

/-- The AI is asked. -/
def Cmd.isRecommend : Cmd → Bool
  | .getRecommendation _ => true
  | _ => false

/-- Only audit events take no lock. -/
theorem table_of_keysOf_eq_nil {sts : List Stmt} (h : keysOf sts = []) :
    ∀ st ∈ sts, st.table = .auditEvents := by
  intro st hst
  have hkeys : st.keys = [] := List.flatMap_eq_nil_iff.mp h st hst
  cases st with
  | insertAuditEvent row => rfl
  | _ => cases hkeys

/-- **What is open while a remote party is asked**, as long as nothing spills (`machine`). While a
link is created nothing is flushed and not committed. While one is searched for a transaction may
be open, with audit events and no lock in it, and while the AI is asked one that locks the row of
one case at most. An operation that has returned has left nothing uncommitted. -/
theorem open_of_remote (hw : Reachable w) (t : Tid) :
    ((w.next? t).any Cmd.isCreate = true → w.shared.pendingOf t = []) ∧
    ((w.next? t).any Cmd.isFind = true →
      (∀ st ∈ w.shared.pendingOf t, st.table = .auditEvents) ∧ ∀ k, ¬ w.locking.holds t k) ∧
    ((w.next? t).any Cmd.isRecommend = true →
      ∃ caseId, ∀ k, w.locking.holds t k → k = .recoveryCase caseId) ∧
    ∀ response, w.prog? t = some (.done (.ok response)) → w.shared.pendingOf t = [] := by
  obtain ⟨g, hwatched, hheld⟩ := hw.watched
  -- what the discipline allows of the next command
  have hallowed : ∀ {p : Cmd → Bool}, (w.next? t).any p = true →
      ∃ (op : Op) (c : Cmd), p c = true ∧ (discipline op).allows (g t) c := by
    intro p h
    obtain ⟨c, hc, hp⟩ := (Option.any_eq_true _ _).mp h
    obtain ⟨op, rest, hthread⟩ := World.exists_of_next? hc
    exact ⟨op, c, hp, (hwatched.alive t op _ hthread).1⟩
  refine ⟨fun h => ?_, fun h => ?_, fun h => ?_, fun response hdone => ?_⟩
  · obtain ⟨op, c, hc, hallows⟩ := hallowed h
    cases c with
    | createPaymentLink caseId request => exact (hheld t).symm.trans hallows
    | _ => cases hc
  · obtain ⟨op, c, hc, hallows⟩ := hallowed h
    cases c with
    | findPaymentLinkByReference referenceId =>
      have hnone : keysOf (w.shared.pendingOf t) = [] := hheld t ▸ hallows
      refine ⟨table_of_keysOf_eq_nil hnone, fun k hk => ?_⟩
      change k ∈ keysOf (w.shared.pendingOf t) at hk
      rw [hnone] at hk
      cases hk
    | _ => cases hc
  · obtain ⟨op, c, hc, hallows⟩ := hallowed h
    cases c with
    | getRecommendation context =>
      obtain ⟨caseId, honly⟩ := hallows
      refine ⟨caseId, fun k hk => honly k ?_⟩
      change k ∈ keysOf (w.shared.pendingOf t) at hk
      rwa [← hheld t] at hk
    | _ => cases hc
  · obtain ⟨⟨op, prog⟩, hthread, rfl⟩ := Option.bind_eq_some_iff.mp hdone
    have hclears : Outcome.Clears op (.ok response) (g t) := hwatched.alive t op _ hthread
    exact (hheld t).symm.trans hclears

set_option maxRecDepth 10000 in
theorem open_of_remote_calling :
    ((World.empty.after Sample.calling).next? 2).any Cmd.isCreate = true ∧
      (World.empty.after Sample.calling).shared.pendingOf 2 = [] := by
  have hcalls : ((World.empty.after Sample.calling).next? 2).any Cmd.isCreate = true := by
    decide +kernel
  exact ⟨hcalls, (open_of_remote (World.reachable_after _) 2).1 hcalls⟩

end RecoverAI
