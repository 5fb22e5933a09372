import RecoverAI.Runs.Approval
import Mathlib.Algebra.BigOperators.Group.Finset.Basic
import Mathlib.Algebra.Order.BigOperators.Group.Finset

/-!
# No double execution

Calls of the provider are counted against committed claims, and claims against
approvals (`calls_le_claims`). The first bound is proved for one operation at a time,
where the phase of the operation says how far it is ahead (`Phase.open?`), and then
summed over all operations.

An execution that loses its case to another one leaves nothing behind
(`nothing_of_lost`).
-/

namespace RecoverAI

open Interleave

namespace History

/-- How many events of a record satisfy `p`, a condition on the record before the event,
its operation, and the event. -/
def count (p : History → Tid → Event → Bool) : History → ℕ
  | [] => 0
  | (t, e) :: H => count p H + (p H t e).toNat

/-- The condition, for the events of one operation. -/
def onlyBy (t : Tid) (p : History → Tid → Event → Bool) : History → Tid → Event → Bool :=
  fun H u e => decide (u = t) && p H u e

variable {p q : History → Tid → Event → Bool} {H : History}

@[simp] theorem count_nil : count p [] = 0 := rfl

@[simp] theorem count_cons (t : Tid) (e : Event) :
    count p ((t, e) :: H) = count p H + (p H t e).toNat := rfl

/-- What implies something else is not counted more often. -/
theorem count_mono (h : ∀ H t e, p H t e = true → q H t e = true) : count p H ≤ count q H := by
  induction H with
  | nil => exact le_rfl
  | cons x H ih =>
    obtain ⟨t, e⟩ := x
    -- Both grow by the event, and the first by no more than the second.
    exact Nat.add_le_add ih (Bool.toNat_le_toNat (Bool.le_iff_imp.mpr (h H t e)))

/-- What is counted at all is found in the record. -/
theorem exists_of_count_pos (h : 0 < count p H) :
    ∃ (newer older : History) (t : Tid) (e : Event), H = newer ++ (t, e) :: older ∧
      p older t e = true := by
  induction H with
  | nil => cases h
  | cons x H ih =>
    obtain ⟨t, e⟩ := x
    -- The newest such event, or one below it.
    cases hp : p H t e with
    | true => exact ⟨[], H, t, e, rfl, hp⟩
    | false =>
      rw [count_cons, hp] at h
      obtain ⟨newer, older, u, e', rfl, hp'⟩ := ih h
      exact ⟨(t, e) :: newer, older, u, e', rfl, hp'⟩

/-- A count is the sum of the counts of the operations. -/
theorem count_eq_sum {T : Finset Tid} (hT : ∀ e ∈ H, e.1 ∈ T) :
    count p H = ∑ t ∈ T, count (onlyBy t p) H := by
  induction H with
  | nil => simp
  | cons x H ih =>
    obtain ⟨u, e⟩ := x
    have hu : u ∈ T := hT _ List.mem_cons_self
    -- The event counts for its own operation and for no other.
    have hone : ∑ t ∈ T, (onlyBy t p H u e).toNat = (p H u e).toNat := by
      rw [Finset.sum_eq_single_of_mem u hu fun t _ ht => by simp [onlyBy, Ne.symm ht]]
      simp [onlyBy]
    simp only [count_cons, Finset.sum_add_distrib, hone]
    rw [ih fun e he => hT e (List.mem_cons_of_mem _ he)]

/-- A bound for each operation is a bound for all. -/
theorem count_le_of_onlyBy (h : ∀ t, count (onlyBy t p) H ≤ count (onlyBy t q) H) :
    count p H ≤ count q H := by
  have hT : ∀ e ∈ H, e.1 ∈ (H.map Prod.fst).toFinset := fun e he => by
    rw [List.mem_toFinset]
    exact List.mem_map_of_mem he
  rw [count_eq_sum hT, count_eq_sum hT]
  exact Finset.sum_le_sum fun t _ => h t

end History

/-! ### What is counted -/

/-- The status of a case. -/
def Db.statusOf (db : Db) (caseId : Uuid) : Option RecoveryCaseStatus :=
  (db.recoveryCases.get? caseId).map RecoveryCase.status

namespace History

/-- The calls of the provider on behalf of a case. -/
def calls (caseId : Uuid) (H : History) : ℕ := count (fun _ _ e => e.isCall caseId) H

/-- The event takes the case from one status to the other. -/
def takes (caseId : Uuid) (source target : RecoveryCaseStatus) (H : History) (t : Tid) (e : Event) :
    Bool :=
  H.replay.statusOf caseId = some source ∧ (replay ((t, e) :: H)).statusOf caseId = some target

/-- The committed transitions of a case from APPROVED to EXECUTING. -/
def executions (caseId : Uuid) (H : History) : ℕ :=
  count (takes caseId .approved .executing) H

/-- The event approves the case. -/
def approves (caseId : Uuid) (H : History) (t : Tid) (e : Event) : Bool :=
  H.replay.statusOf caseId ≠ some .approved ∧
    (replay ((t, e) :: H)).statusOf caseId = some .approved

/-- The committed approvals of a case. -/
def approvals (caseId : Uuid) (H : History) : ℕ := count (approves caseId) H

/-- Each approval is executed at most once. -/
theorem executions_le_approvals (caseId : Uuid) (H : History) :
    executions caseId H + (decide (H.replay.statusOf caseId = some .approved)).toNat ≤
      approvals caseId H := by
  induction H with
  | nil => simp [executions, approvals, Db.statusOf, Db.empty, Table.get?]
  | cons x H ih =>
    obtain ⟨t, e⟩ := x
    simp only [executions, approvals, count_cons, takes, approves] at ih ⊢
    -- Only the status before and the status after matter.
    generalize (replay ((t, e) :: H)).statusOf caseId = after
    generalize (replay H).statusOf caseId = before at ih ⊢
    by_cases hb : before = some .approved
    · -- neither an approval nor the end of one
      by_cases ha : after = some .approved
      · simp [hb, ha] at ih ⊢
        omega
      · -- An execution uses the approval up.
        have hle := Bool.toNat_le (decide (after = some .executing))
        simp [hb, ha] at ih ⊢
        omega
    · -- It was not approved before: an approval now counts on both sides.
      simp [hb] at ih ⊢
      omega

end History

/-! ### Claims -/

/-- The case an execution has claimed without having called the provider yet. -/
def Phase.open? : Phase → Option Uuid
  | .claimed c => some c.id
  | .attempted c _ => some c.id
  | _ => none

/-- The opening of cases claims none. -/
theorem phase_eq_idle_of_openings {openings : List Opening} {correlationId : String} :
    claimOf (openings.map fun o => Opening.stmts o correlationId).flatten = none :=
  claimOf_eq_none_of_forall <|
    forall_mem_openings (fun _ => rfl) (fun _ _ _ _ => rfl) openings

/-- **A transaction that claims is a claim.** -/
theorem Txn.of_claimOf {h : List Event} {db : Db} {sts : List Stmt} {c : RecoveryCase}
    (htxn : Txn h db sts) (hidle : phase h = .idle) (hclaim : claimOf sts = some c) :
    ∃ x : Execution, sts = x.claimStmts ∧ c = x.claimed ∧ x.Known db ∧ x.Cleared ∧
      x.reads <+: h := by
  have hnone : ∀ {sts' : List Stmt}, claimOf sts' = none → sts = sts' → False := by
    rintro sts' hn rfl
    rw [hn] at hclaim
    cases hclaim
  -- The other transactions of an idle operation contain no claim, and those of an operation with a
  -- case in hand are not idle.
  cases htxn with
  | claimed x op idle known cleared reads =>
    rw [x.claimOf_claimStmts known.approved] at hclaim
    exact ⟨x, rfl, (Option.some.inj hclaim).symm, known, cleared, reads⟩
  | ingested i =>
    have hno : claimOf (i.stmts ++ []) = none := claimOf_paymentStmts _ _ _ _ _ (by simp)
    rw [List.append_nil] at hno
    exact (hnone hno rfl).elim
  | ingestedWithCase i id createdAt t' =>
    refine (hnone (claimOf_paymentStmts _ _ _ _ _ ?_) rfl).elim
    exact forall_mem_openingStmts (fun _ => rfl) (fun _ _ _ _ => rfl) _ _ _ _
  | deduplicated =>
    exact (hnone (claimOf_eq_none_of_forall (by simp [auditStmt, Stmt.caseUpdate?])) rfl).elim
  | opened openings correlationId => exact (hnone phase_eq_idle_of_openings rfl).elim
  | turnedAway d => exact (hnone d.claimOf_turnAwayStmts rfl).elim
  | diagnosed d => exact (hnone (d.claimOf_append_reviewStmts _) rfl).elim
  | withheld x reason t => exact (hnone (x.claimOf_withholdStmts reason t) rfl).elim
  | attempted recoveryCase payment correlationId reference id startedAt createdAt t op claimed =>
    rw [hidle] at claimed
    cases claimed
  | recorded c attempt made link id completedAt correlationId t op inHand =>
    rw [hidle] at inHand
    rcases inHand with h | h <;> cases h
  | reconciled c attempt made found error link searchError correlationId t t' op searched =>
    rw [hidle] at searched
    cases searched
  | gaveUp c attempt made category message reason correlationId completedAt t op inHand =>
    rw [hidle] at inHand
    rcases inHand with ⟨e, h, -⟩ | ⟨found, h, -⟩ <;> cases h
  | ignored event =>
    exact (hnone (claimOf_eq_none_of_forall (by simp [Delivery.claimStmt, Stmt.caseUpdate?]))
      rfl).elim
  | unmatched event =>
    exact (hnone (claimOf_eq_none_of_forall
      (by simp [Delivery.claimStmt, auditStmt, Stmt.caseUpdate?])) rfl).elim
  | detached event =>
    exact (hnone (claimOf_eq_none_of_forall (by simp [Delivery.claimStmt, Stmt.caseUpdate?]))
      rfl).elim
  | observed d t =>
    refine (hnone (claimOf_eq_none_of_forall fun st hst => ?_) rfl).elim
    have ht := d.table_observeStmts hst
    cases st <;> simp [Stmt.table, Stmt.caseUpdate?] at ht ⊢
  | recovered d t t' =>
    exact (hnone (claimOf_eq_none_of_mem d.loaded.recoveryCase
      { d.credited with status := .recovered }
      (by simp [Delivery.recoverStmts, transitionStmts]) (by simp)) rfl).elim
  | failed d attempt t t' =>
    exact (hnone (claimOf_eq_none_of_mem d.loaded.recoveryCase
      { d.loaded.recoveryCase with status := .failed }
      (by simp [Delivery.failStmts, transitionStmts]) (by simp)) rfl).elim
  | cycled cycleId body =>
    exact (hnone (claimOf_eq_none_of_forall (by simp [auditStmt, Stmt.caseUpdate?])) rfl).elim

/-- An execution has a claim open from its first transaction to its call. -/
theorem Phase.open?_next {p : Phase} {e : Event} {id : Uuid} (h : (p.next e).open? = some id) :
    p.open? = some id ∨
      (p = .idle ∧ ∃ sts c, e = .committed sts ∧ claimOf sts = some c ∧ c.id = id) := by
  rcases of_next open? rfl h with h | ⟨sts, rfl⟩ |
    ⟨_, _, _, _, _, _, rfl, -, h⟩ | ⟨_, _, _, _, _, _, rfl, -, h⟩
  · exact .inl h
  · -- A commit opens a claim, or notes an attempt under it.
    cases p with
    | idle =>
      refine .inr ⟨rfl, sts, ?_⟩
      simp only [next] at h
      split at h
      · next c he => exact ⟨c, rfl, he, Option.some.inj h⟩
      · cases h
    | claimed c' =>
      simp only [next] at h
      split at h
      · exact .inl h
      · cases h
    | _ => cases h
  · -- The call ends it, and the search comes after the call.
    cases h
  · cases h

/-- A claim takes its case from APPROVED to EXECUTING. -/
theorem Lawful.takes_of_claim {H : History} {t : Tid} {x : Execution}
    (h : Lawful ((t, .committed x.claimStmts) :: H)) (hreads : x.reads <+: H.own t)
    (happroved : x.recoveryCase.status = .approved) :
    History.takes x.recoveryCase.id .approved .executing H t (.committed x.claimStmts) = true := by
  -- The claim writes the row it has read.
  have hrow := h.row_of_claim hreads
  have hafter := x.turns_claimStmts _ hrow x.recoveryCase.id
  rw [if_pos rfl] at hafter
  simp only [History.takes, Db.statusOf, History.replay_cons, Event.applyTo_committed, hrow, hafter,
    Option.map_some, happroved, true_and, decide_eq_true_eq]
  rfl

/-- **The rule of claims.** What ends a claim of an operation, and needs one, the operation
does no more often than it claims, and less often while a claim stands. How long a claim
stands is read from the phase of the operation. -/
theorem Lawful.count_onlyBy_le {H : History} (h : Lawful H) {caseId : Uuid} {t : Tid}
    {p : History → Tid → Event → Bool} (stands : Phase → Option Uuid)
    (hidle : stands .idle = none)
    (hnext : ∀ {ph : Phase} {e : Event}, stands (ph.next e) = some caseId →
      stands ph = some caseId ∨
        (ph = .idle ∧ ∃ sts c, e = .committed sts ∧ claimOf sts = some c ∧ c.id = caseId))
    (hends : ∀ (H : History) e, Lawful ((t, e) :: H) → p H t e = true →
      stands (phase (H.own t)) = some caseId ∧ stands ((phase (H.own t)).next e) = none) :
    History.count (History.onlyBy t p) H +
        (decide (stands (phase (History.own H t)) = some caseId)).toNat ≤
      History.count (History.onlyBy t (History.takes caseId .approved .executing)) H := by
  induction h with
  | refl => simp [hidle]
  | @cons H u e before permitted checked _ ih =>
    have hlawful : Lawful ((u, e) :: H) := .cons before permitted checked trivial
    by_cases hu : t = u
    · subst hu
      simp only [History.count_cons, History.own_cons_self, History.onlyBy, decide_true,
        Bool.true_and, phase_cons] at ih ⊢
      by_cases hp : p H t e
      · -- the event ends the claim of the operation
        obtain ⟨hstands, hended⟩ := hends H e hlawful hp
        rw [hstands] at ih
        rw [hended, hp]
        simp at ih ⊢
        omega
      · -- The claim goes on, or begins.
        by_cases hstands : stands ((phase (History.own H t)).next e) = some caseId
        · rcases hnext hstands with hbefore | ⟨hphase, sts, c, rfl, hclaim, rfl⟩
          · -- It stood before and stands.
            rw [hbefore] at ih
            simp only [hstands, hp, decide_true, Bool.toNat_true, Bool.toNat_false] at ih ⊢
            omega
          · -- It begins with this event, which is then counted on the right.
            obtain ⟨x, rfl, rfl, known, -, reads⟩ := Txn.of_claimOf permitted hphase hclaim
            have htakes := hlawful.takes_of_claim reads known.approved
            have hnone : stands (phase (History.own H t)) ≠ some x.claimed.id := by
              rw [hphase, hidle]
              exact fun he => by cases he
            simp only [hstands, hp, decide_true, Bool.toNat_true, Bool.toNat_false] at ih ⊢
            change _ + 0 + 1 ≤ _ + (History.takes x.recoveryCase.id _ _ H t _).toNat
            rw [htakes, Bool.toNat_true]
            omega
        · -- No claim stands after the event.
          simp only [hstands, hp, decide_false, Bool.toNat_false] at ih ⊢
          omega
    · -- An event of another operation is counted for neither.
      rw [History.own_cons_ne hu]
      simp only [History.count_cons, History.onlyBy, Ne.symm hu, decide_false, Bool.false_and,
        Bool.toNat_false, Nat.add_zero] at ih ⊢
      exact ih

/-- One operation calls the provider no more often than it claims. -/
theorem Lawful.calls_onlyBy_le {H : History} (h : Lawful H) (caseId : Uuid) (t : Tid) :
    History.count (History.onlyBy t fun _ _ e => e.isCall caseId) H ≤
      History.count (History.onlyBy t (History.takes caseId .approved .executing)) H := by
  -- The phase says how long a claim stands, and the call ends it.
  refine (Nat.le_add_right _ _).trans (h.count_onlyBy_le Phase.open? rfl Phase.open?_next ?_)
  intro H e hlawful hcall
  obtain ⟨request, made, answer, rfl⟩ := Event.exists_of_isCall hcall
  obtain ⟨-, x, attempt, hcalled⟩ := hlawful.cons_inv.2.1
  constructor
  · rw [hcalled.attempted, hcalled.onBehalf]
    rfl
  · rw [hcalled.attempted]
    exact Option.eq_none_iff_forall_ne_some.mpr fun _ h => by
      cases Phase.of_unlessRaised Phase.open? rfl h

/-- So the provider is called no more often than the case is executed. -/
theorem Lawful.calls_le_executions {H : History} (h : Lawful H) (caseId : Uuid) :
    H.calls caseId ≤ H.executions caseId :=
  History.count_le_of_onlyBy fun t => h.calls_onlyBy_le caseId t

/-! ### Losing calls -/

/-- A committed case is found by an execution. -/
theorem Lawful.caseForExecution_isSome {H : History} (h : Lawful H) {caseId : Uuid}
    (hc : (H.replay.recoveryCases.get? caseId).isSome) (ranking : List Uuid) :
    (H.replay.caseForExecution ranking caseId).isSome := by
  obtain ⟨c, hrow⟩ := Option.isSome_iff_exists.mp hc
  -- A committed case has its payment.
  obtain ⟨p, hp, hid, -⟩ := (h.caseInv hrow).payment
  rw [Db.PaymentSeen, hid] at hp
  simp [Db.caseForExecution, hrow, hp]

/-- An execution whose case existed when it was started has found it. -/
theorem Lawful.not_read_none {newer older : History} {t : Tid} {op : Op} {caseId : Uuid}
    (h : Lawful (newer ++ (t, .started op) :: older))
    (hc : (older.replay.recoveryCases.get? caseId).isSome) :
    (t, .selected (.caseForExecution caseId) none) ∉ newer ++ (t, .started op) :: older := by
  intro hread
  -- The read is above the start, since the operation had done nothing before.
  have hfirst : older.own t = [] := h.of_append.cons_inv.2.1
  rcases List.mem_append.mp hread with hread | hread
  · obtain ⟨newer₁, older₁, rfl⟩ := List.append_of_mem hread
    rw [List.append_assoc, List.cons_append] at h
    obtain ⟨hl, ⟨ranking, hresult⟩, -⟩ := h.of_append.cons_inv
    have hev : older.replay.Evolves
        (History.replay ((older₁ ++ [(t, .started op)]) ++ older)) :=
      Lawful.evolves_of_append (by simpa using hl)
    -- The case was there at the start and is there at the read.
    obtain ⟨c, hrow⟩ := Option.isSome_iff_exists.mp hc
    obtain ⟨c', hrow', -⟩ := hev.recoveryCase _ _ hrow
    have hstill : ((History.replay (older₁ ++ (t, .started op) :: older)).recoveryCases.get?
        caseId).isSome := by simpa using Option.isSome_iff_exists.mpr ⟨c', hrow'⟩
    have hfound := hl.caseForExecution_isSome hstill ranking
    have hnone : (History.replay (older₁ ++ (t, .started op) :: older)).caseForExecution ranking
        caseId = none := hresult.symm
    rw [hnone] at hfound
    cases hfound
  · rcases List.mem_cons.mp hread with hread | hread
    · cases hread
    · have hmem := History.mem_own.mpr hread
      rw [hfirst] at hmem
      cases hmem

/-- An approved case that was read has an action. -/
theorem Lawful.action_of_read {H : History} (h : Lawful H) {t : Tid} {caseId : Uuid}
    {loaded : CaseForExecution}
    (hread : (t, .selected (.caseForExecution caseId) (some loaded)) ∈ H)
    (happroved : loaded.recoveryCase.status = .approved) :
    loaded.recoveryCase.recommendedAction ≠ none := by
  obtain ⟨newer, older, rfl, hl, ⟨ranking, hresult⟩, -⟩ := h.split hread
  have hresult : (History.replay older).caseForExecution ranking caseId = some loaded :=
    hresult.symm
  simp only [Db.caseForExecution, Option.bind_eq_bind, Option.bind_eq_some_iff] at hresult
  obtain ⟨c, hc, p, -, he⟩ := hresult
  cases he
  -- An approved case is ready, and that includes its action.
  rw [((hl.caseInv hc).ready (.inl happroved)).1]
  simp

/-- **No double execution.** Whatever the interleaving, a case has at most one call of the
provider for each committed transition from APPROVED to EXECUTING, and at most one such
transition for each approval. A call of `execute_recovery_case` that did not change its
case raises one of two errors, and has committed nothing at all. -/
theorem no_double_execution {w : World} (hw : Reachable w) (caseId : Uuid) :
    History.calls caseId w.shared.history ≤ History.executions caseId w.shared.history ∧
    History.executions caseId w.shared.history ≤ History.approvals caseId w.shared.history ∧
    ∀ (newer older : History) t correlationId outcome,
      w.shared.history = newer ++ (t, .started (.execute caseId correlationId)) :: older →
      (older.replay.recoveryCases.get? caseId).isSome →
      (t, .ended (some outcome)) ∈ w.shared.history →
      ¬ Acted (w.shared.own t) caseId →
      commits (w.shared.own t) = [] ∧
        ((∃ m, outcome = .error (.recoverAI (.invalidStateTransition m))) ∨
          (∃ m, outcome = .error (.recoverAI (.concurrentModification m)))) := by
  have hl := Reachable.lawful hw
  -- The two bounds are lemmas; what is left is the call that has lost.
  refine ⟨hl.calls_le_executions caseId,
    (Nat.le_add_right _ _).trans (History.executions_le_approvals caseId _), ?_⟩
  intro newer older t correlationId outcome hsplit hexists hended hlost
  obtain ⟨newer', older', hsplit', hl', hp, hown⟩ := Reachable.own_of_ended hw hended
  have hown : w.shared.own t = .ended (some outcome) :: older'.own t := hown
  have hstarted : .started (.execute caseId correlationId) ∈ w.shared.own t := by
    refine History.mem_own.mpr ?_
    rw [hsplit]
    exact List.mem_append_right _ List.mem_cons_self
  rw [hown] at hlost hstarted ⊢
  have hstarted := (List.mem_cons.mp hstarted).resolve_left (by simp)
  -- What the operation has done itself is in the record.
  have hsub : ∀ e, e ∈ older'.own t → (t, e) ∈ w.shared.history := fun e he => by
    rw [hsplit']
    exact List.mem_append_right _ (List.mem_cons_of_mem _ (History.mem_own.mp he))
  obtain ⟨hcommits, h | h | h | ⟨loaded, hread, happroved, hnone⟩⟩ :=
    hp.lost caseId correlationId hstarted fun ha => hlost (ha.cons _)
  · -- refused by the state machine
    exact ⟨hcommits, .inl h⟩
  · -- refused by the version check
    exact ⟨hcommits, .inr h⟩
  · -- the case was there to be found
    rw [hsplit] at hl
    refine absurd (hsub _ h) ?_
    rw [hsplit]
    exact hl.not_read_none hexists
  · -- Nor was the case approved without an action.
    exact absurd hnone (hl.action_of_read (hsub _ hread) happroved)

namespace Sample

/-- An execution has read the approved case, and claimed nothing yet. -/
def reading : List Action := approved ++ [.start (.execute 3 "c")] ++ part 2 [.ranking []]

/-- A second one that is started then reads it, too, and is refused. -/
def contended : World :=
  ((World.empty.after reading).after [.start (.execute 3 "c")]).after
    (part 3 [.ranking []] ++ part 2 claim.tail ++
      part 3 (audit ++ [.settings settings, .time 0] ++ audit ++ [.go, .go]) ++ [.finish 3] ++
      part 2 (attempt 10 11 ++ call "L" ++ record 12) ++ [.finish 2])

/-- The run is one of the application. -/
theorem reachable_contended : Reachable contended :=
  ((World.reachable_after reading).trans (World.reaches_after _ _)).trans (World.reaches_after _ _)

end Sample

set_option maxRecDepth 10000 in
/-- Two executions of one approved case: one call, and the other execution raises. -/
theorem no_double_execution_contended :
    History.calls 3 Sample.contended.shared.history = 1 ∧
      History.calls 3 Sample.contended.shared.history ≤
        History.executions 3 Sample.contended.shared.history ∧
      History.executions 3 Sample.contended.shared.history ≤
        History.approvals 3 Sample.contended.shared.history ∧
      ∃ outcome, (3, .ended (some outcome)) ∈ Sample.contended.shared.history ∧
        commits (Sample.contended.shared.own 3) = [] ∧
        ((∃ m, outcome = .error (.recoverAI (.invalidStateTransition m))) ∨
          (∃ m, outcome = .error (.recoverAI (.concurrentModification m)))) := by
  have h := no_double_execution Sample.reachable_contended 3
  -- where the second call was started
  have hstarted : ((World.empty.after Sample.reading).after [.start (.execute 3 "c")]).shared.history =
      (3, .started (.execute 3 "c")) :: (World.empty.after Sample.reading).shared.history := by
    have hlength : (World.empty.after Sample.reading).threads.length = 3 := by decide +kernel
    rw [← hlength]
    rfl
  obtain ⟨newer, hsplit⟩ := (extends_of_reachesVia (P := fun _ _ _ => True)
    ((World.reachable_after Sample.reading).trans (World.reaches_after _ [.start (.execute 3 "c")]))
    (World.reaches_after _ _) (fun _ _ _ _ _ _ _ _ _ => trivial)).suffix
  rw [hstarted] at hsplit
  obtain ⟨outcome, hended⟩ : ∃ outcome,
      (3, .ended (some outcome)) ∈ Sample.contended.shared.history :=
    History.ended_mem_of_any (by decide +kernel)
  -- The second call has lost, as it has committed nothing.
  have hnone : commits (Sample.contended.shared.own 3) = [] := by decide +kernel
  have hlost : ¬ Acted (Sample.contended.shared.own 3) 3 := by
    rintro ⟨sts, hmem, -⟩
    rw [hnone] at hmem
    cases hmem
  exact ⟨by decide +kernel, h.1, h.2.1, outcome, hended,
    h.2.2 newer _ 3 "c" outcome hsplit.symm (by decide +kernel) hended hlost⟩

end RecoverAI
