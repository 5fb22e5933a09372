import RecoverAI.Protocol.Versions
import RecoverAI.Runs.AuditTrail

/-!
# Versions

The version of a case is the only thing that stands between two sessions that have read the
same row. It is enough: whatever the interleaving, every update of a case that is committed
finds the row it was made from, so none is lost (`no_lost_update`), and the version of a case
counts its updates (`version_counts_updates`). A case in a terminal status is never touched
again (`terminal_frozen`).
-/

namespace RecoverAI

open Interleave

variable {w w' : World} {t : Tid} {H newer older : History}

/-- A statement over another table updates no case. -/
theorem Stmt.caseUpdate?_of_table {st : Stmt} (h : st.table ≠ .recoveryCases) :
    st.caseUpdate? = none := by
  cases st <;> first | rfl | exact absurd rfl h

/-- **A transaction updates no case, or rewrites the one it finds.** -/
theorem Txn.rewrites {h : List Event} {db : Db} {sts : List Stmt} (htxn : Txn h db sts)
    (hc : Store.checkAll sts db = none) : (∀ st ∈ sts, st.caseUpdate? = none) ∨
      ∃ c c', Rewrites c sts c' ∧ db.recoveryCases.get? c.id = some c := by
  have hmoved : ∀ {c c' : RecoveryCase}, CaseStep h db sts c c' → db.CaseSeen c →
      ∃ c c', Rewrites c sts c' ∧ db.recoveryCases.get? c.id = some c :=
    fun step seen => ⟨_, _, step.rewrites, step.rewrites.row_of_checkAll step.version_lt seen hc⟩
  -- a payment comes without an update of a case
  have hpayment : ∀ {newCustomer customer payment correlationId now},
      ∀ st ∈ paymentStmts newCustomer customer payment correlationId now,
        st.caseUpdate? = none := fun st hst => Stmt.caseUpdate?_of_table fun he => by
    have ht := table_paymentStmts hst
    simp [he] at ht
  cases htxn with
  | ingested i => exact .inl hpayment
  | ingestedWithCase i id createdAt t' =>
    refine .inl fun st hst => ?_
    rcases List.mem_append.mp hst with hst | hst
    · exact hpayment st hst
    · exact forall_mem_openingStmts (C := fun st => st.caseUpdate? = none) (fun _ => rfl)
        (fun _ _ _ _ => rfl) _ _ _ _ st hst
  | deduplicated => exact .inl (by simp [auditStmt, Stmt.caseUpdate?])
  | opened openings => exact .inl (forall_mem_openings (fun _ => rfl) (fun _ _ _ _ => rfl) openings)
  | turnedAway d op idle known status ineligible =>
    exact .inr (hmoved (.turnedAway d known status ineligible) known.caseSeen)
  | diagnosed d op idle known status admitted =>
    exact .inr (hmoved (.diagnosed d known status admitted) known.caseSeen)
  | claimed x op idle known cleared reads =>
    exact .inr (hmoved (.claimed x idle known cleared reads) known.caseSeen)
  | withheld x reason t op idle known withheld =>
    exact .inr (hmoved (.withheld x reason t known withheld) known.caseSeen)
  | attempted => exact .inl (by simp [attemptStmts, auditStmt, Stmt.caseUpdate?])
  | recorded c attempt made link id completedAt correlationId t op inHand caseSeen =>
    exact .inr (hmoved (.recorded c attempt made link id completedAt correlationId t inHand) caseSeen)
  | reconciled => exact .inl (by simp [reconcileStmts, auditStmt, Stmt.caseUpdate?])
  | gaveUp c attempt made category message reason correlationId completedAt t op inHand caseSeen =>
    exact .inr (hmoved (.gaveUp c attempt made category message reason correlationId completedAt t
      inHand) caseSeen)
  | ignored => exact .inl (by simp [Delivery.claimStmt, Stmt.caseUpdate?])
  | unmatched => exact .inl (by simp [Delivery.claimStmt, auditStmt, Stmt.caseUpdate?])
  | detached => exact .inl (by simp [Delivery.claimStmt, Stmt.caseUpdate?])
  | observed d t =>
    exact .inl fun st hst => Stmt.caseUpdate?_of_table (d.observeStmts_ne st hst)
  | recovered d t t' idle known executing paid =>
    exact .inr (hmoved (.recovered d t t' known executing paid) known.caseSeen)
  | failed d attempt t t' idle known executing unpaid =>
    exact .inr (hmoved (.failed d attempt t t' known executing unpaid) known.caseSeen)
  | cycled => exact .inl (by simp [auditStmt, Stmt.caseUpdate?])

/-- What a commit of a lawful record rewrites. -/
theorem Lawful.rewrites {sts : List Stmt} (h : Lawful ((t, .committed sts) :: H)) :
    (∀ st ∈ sts, st.caseUpdate? = none) ∨
      ∃ c c', Rewrites c sts c' ∧ H.replay.recoveryCases.get? c.id = some c :=
  let ⟨_, hp, hc⟩ := h.cons_inv
  Txn.rewrites hp (hc sts rfl)

/-! ### No update is lost -/

/-- **No update of a case is lost.** Wherever an update of a case is committed, the row it
replaces is, column for column, the row it was made from. -/
theorem no_lost_update (hw : Reachable w) {pre post : List Stmt} {before after : RecoveryCase}
    (h : w.shared.history =
      newer ++ (t, .committed (pre ++ .updateCase before after :: post)) :: older) :
    (Store.applyAll pre older.replay).recoveryCases.get? before.id = some before := by
  have hlawful := Reachable.lawful hw
  rw [h] at hlawful
  rcases hlawful.of_append.rewrites with hnone | ⟨c, c', hrewrites, hrow⟩
  · have hst : (Stmt.updateCase before after).caseUpdate? = none :=
      hnone _ (List.mem_append.mpr (.inr List.mem_cons_self))
    cases hst
  · exact hrewrites.row_of_update hrow

/-- The event commits an update of a case. -/
def Event.updatesCase : Event → Bool
  | .committed sts => sts.any fun st => st.caseUpdate?.isSome
  | _ => false

theorem Event.exists_of_updatesCase {e : Event} (h : e.updatesCase = true) :
    ∃ pre before after post, e = .committed (pre ++ .updateCase before after :: post) := by
  cases e with
  | committed sts =>
    obtain ⟨st, hst, hsome⟩ := List.any_eq_true.mp h
    obtain ⟨pre, post, rfl⟩ := List.append_of_mem hst
    cases st with
    | updateCase before after => exact ⟨pre, before, after, post, rfl⟩
    | _ => cases hsome
  | _ => cases h

set_option maxRecDepth 10000 in
theorem no_lost_update_executed : ∃ newer t pre before after post older,
    (World.empty.after Sample.executed).shared.history =
      newer ++ (t, .committed (pre ++ .updateCase before after :: post)) :: older ∧
    (Store.applyAll pre (History.replay older)).recoveryCases.get? before.id = some before := by
  have hcommits : ∃ p ∈ (World.empty.after Sample.executed).shared.history,
      p.2.updatesCase = true := by decide +kernel
  obtain ⟨⟨t, e⟩, hmem, he⟩ := hcommits
  obtain ⟨pre, before, after, post, rfl⟩ := Event.exists_of_updatesCase he
  obtain ⟨newer, older, hsplit⟩ := List.append_of_mem hmem
  exact ⟨newer, t, pre, before, after, post, older, hsplit,
    no_lost_update (World.reachable_after _) hsplit⟩

/-! ### Versions count -/

/-- The committed updates of a case. -/
def History.updates (caseId : Uuid) : History → ℕ
  | [] => 0
  | (_, .committed sts) :: H => updates caseId H + Rewrites.updates caseId sts
  | _ :: H => updates caseId H

/-- The version of a case is that of its opening and all its updates. -/
def VersionInv (H : History) : Prop :=
  ∀ id, match H.replay.recoveryCases.get? id with
    | some c => c.version = 1 + H.updates id
    | none => H.updates id = 0

theorem Lawful.versionInv (h : Lawful H) : VersionInv H := by
  induction h using Lawful.induction with
  | refl => exact fun id => rfl
  | @cons H t e before lawful ih =>
    cases e with
    | committed sts =>
      intro id
      have ih := ih id
      rw [History.replay_cons, Event.applyTo_committed, History.updates]
      rcases lawful.rewrites with hnone | ⟨c, c', hrewrites, hrow⟩
      · -- no update: the cases are as they were, or some have been opened
        rw [Rewrites.updates_eq_zero hnone, Nat.add_zero]
        cases lawful.caseEffect with
        | same quiet cases =>
          rw [cases]
          exact ih
        | opened rows quiet cases fresh =>
          rw [cases, Table.get?_append]
          cases hr : H.replay.recoveryCases.get? id with
          | some c =>
            rw [hr] at ih
            exact ih
          | none =>
            rw [hr] at ih
            rw [Option.none_or, ih]
            cases hnew : Table.get? rows id with
            | none => rfl
            | some c =>
              obtain ⟨payment, id', createdAt, rfl, -⟩ := fresh c (Table.mem_of_get? hnew)
              rfl
        | moved c c' step row cases =>
          -- a move is an update
          have hversion := step.rewrites.version_eq
          have hlt := step.version_lt
          rw [Rewrites.updates_eq_zero hnone] at hversion
          omega
      · rw [hrewrites.turns _ hrow]
        by_cases hid : c.id = id
        · subst hid
          rw [hrow] at ih
          have ih : c.version = 1 + H.updates c.id := ih
          rw [if_pos rfl]
          change c'.version = _
          rw [hrewrites.version_eq, ih]
          omega
        · rw [if_neg hid, hrewrites.updates_of_ne hid, Nat.add_zero]
          exact ih
    | _ => exact ih

/-- **The version of a case counts its updates**, those of all operations together. -/
theorem version_counts_updates (hw : Reachable w) {c : RecoveryCase}
    (hc : c ∈ w.shared.db.recoveryCases) :
    c.version = 1 + History.updates c.id w.shared.history := by
  have hl := Reachable.lawful hw
  have hversion := hl.versionInv c.id
  rw [Reachable.db_eq hw] at hc
  have hrow : (History.replay w.shared.history).recoveryCases.get? c.id = some c :=
    hl.distinct.caseId.get?_of_mem hc
  rw [hrow] at hversion
  exact hversion

set_option maxRecDepth 10000 in
theorem version_counts_updates_executed :
    ∃ c ∈ (World.empty.after Sample.executed).shared.db.recoveryCases, c.version = 9 ∧
      c.version = 1 + History.updates c.id (World.empty.after Sample.executed).shared.history := by
  have hcase : ∃ c ∈ (World.empty.after Sample.executed).shared.db.recoveryCases,
      c.version = 9 := by decide +kernel
  obtain ⟨c, hc, hversion⟩ := hcase
  exact ⟨c, hc, hversion, version_counts_updates (World.reachable_after _) hc⟩

/-! ### Terminal cases -/

/-- A commit leaves a case in a terminal status as it is. -/
theorem Lawful.row_of_isTerminal {e : Event} (h : Lawful ((t, e) :: H)) {c : RecoveryCase}
    (hrow : H.replay.recoveryCases.get? c.id = some c) (hterminal : isTerminal c.status) :
    (History.replay ((t, e) :: H)).recoveryCases.get? c.id = some c := by
  cases e with
  | committed sts =>
    rw [History.replay_cons, Event.applyTo_committed]
    cases h.caseEffect with
    | same quiet cases => rw [cases, hrow]
    | opened rows quiet cases fresh => rw [cases, Table.get?_append, hrow, Option.some_or]
    | moved c₁ c₂ step row cases =>
      rw [cases]
      by_cases hid : c₁.id = c.id
      · -- no move starts in a terminal status
        rw [hid, hrow] at row
        obtain rfl := Option.some.inj row
        rw [step.not_isTerminal] at hterminal
        cases hterminal
      · rw [if_neg hid, hrow]
  | _ => exact hrow

/-- **Terminal cases are frozen**: no later operation changes any column of theirs. -/
theorem terminal_frozen (hw : Reachable w) (hw' : machine.Reaches w w') {c : RecoveryCase}
    (hc : c ∈ w.shared.db.recoveryCases) (hterminal : isTerminal c.status) :
    c ∈ w'.shared.db.recoveryCases := by
  have hext := extends_of_reaches hw hw'
  have hlawful := Reachable.lawful hw
  rw [Reachable.db_eq hw] at hc
  have hrow : (History.replay w.shared.history).recoveryCases.get? c.id = some c :=
    hlawful.distinct.caseId.get?_of_mem hc
  have hkept : (History.replay w'.shared.history).recoveryCases.get? c.id = some c := by
    generalize w'.shared.history = H' at hext
    induction hext with
    | refl => exact hrow
    | cons before permitted checked cond ih =>
      exact Lawful.row_of_isTerminal
        ((Extends.cons before permitted checked trivial).lawful hlawful) ih hterminal
  rw [Reachable.db_eq (hw.trans hw')]
  exact Table.mem_of_get? hkept

namespace Sample

/-- The link is paid, which recovers the case. -/
def recovered : List Action :=
  executed ++ alone 3 (.webhook (event "k" "L" "paid" (some 500)) "c") (deliver ++ settle)

/-- A late event about the link, and a diagnosis. -/
def afterwards : List Action :=
  alone 4 (.webhook (event "k'" "L" "cancelled" none) "c") (deliver ++ observe) ++
    alone 5 (.diagnose 3 "c") [.ranking []]

end Sample

set_option maxRecDepth 10000 in
theorem terminal_frozen_recovered :
    (World.empty.after Sample.recovered).shared.history.length <
      ((World.empty.after Sample.recovered).after Sample.afterwards).shared.history.length ∧
    ∃ c ∈ (World.empty.after Sample.recovered).shared.db.recoveryCases, c.status = .recovered ∧
      c ∈ ((World.empty.after Sample.recovered).after Sample.afterwards).shared.db.recoveryCases := by
  have hcase : ∃ c ∈ (World.empty.after Sample.recovered).shared.db.recoveryCases,
      c.status = .recovered := by decide +kernel
  obtain ⟨c, hc, hstatus⟩ := hcase
  refine ⟨by decide +kernel, c, hc, hstatus, ?_⟩
  exact terminal_frozen (World.reachable_after _) (World.reaches_after _ _) hc (by rw [hstatus]; rfl)

end RecoverAI
