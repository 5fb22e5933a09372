import RecoverAI.Runs.Attempts
import RecoverAI.Runs.Orphans

/-!
# The contact cap over a whole run

A case that fails is diagnosed and executed again, and each execution contacts the customer
with a new link. The policy compares the contacts of the case with a cap, but no service
counts them (`CaseInv.contacts`), so nothing cuts the loop off.

What bounds the executions of a case is how often it has failed
(`executions_le_failures`). The cap is kept in the runs that approve a failed case again
only while it has failed less often than the cap (`ReapprovesBelow`).
-/

namespace RecoverAI

open Interleave

variable {H : History} {t : Tid} {e : Event} {sts : List Stmt} {caseId : Uuid}

/-! ### The links of a case -/

namespace History

/-- How many payment links the provider has made for the case. -/
def linksMade (caseId : Uuid) (H : History) : ℕ :=
  count (fun _ _ e => e.makes?.map Prod.fst = some caseId) H

/-- The event stores a link of the case. -/
def stores (caseId : Uuid) (H : History) (t : Tid) (e : Event) : Bool :=
  (H.replay.linksOf caseId).length < ((replay ((t, e) :: H)).linksOf caseId).length

/-- The committed transitions of a case from EXECUTING to FAILED. -/
def failures (caseId : Uuid) (H : History) : ℕ := count (takes caseId .executing .failed) H

/-- A link is made by a call only. -/
theorem linksMade_le_calls (caseId : Uuid) (H : History) : linksMade caseId H ≤ calls caseId H := by
  refine count_mono fun _ _ e he => ?_
  rw [decide_eq_true_eq, Option.map_eq_some_iff] at he
  obtain ⟨⟨id, link⟩, hmakes, rfl⟩ := he
  obtain ⟨request, answer, rfl⟩ := Event.exists_of_makes? hmakes
  exact decide_eq_true rfl

end History

/-- **What stores a link** is the execution that has the case in hand, and it has the case in
hand no more. -/
theorem Lawful.length_linksOf_cons (h : Lawful ((t, e) :: H)) (caseId : Uuid) :
    ((History.replay ((t, e) :: H)).linksOf caseId).length = (H.replay.linksOf caseId).length ∨
      ((History.replay ((t, e) :: H)).linksOf caseId).length =
          (H.replay.linksOf caseId).length + 1 ∧
        (phase (H.own t)).case?.map RecoveryCase.id = some caseId ∧
        ((phase (H.own t)).next e).case? = none := by
  cases e with
  | committed sts =>
    rw [History.replay_cons, Event.applyTo_committed, Db.linksOf, Db.linksOf,
      ← List.countP_eq_length_filter, ← List.countP_eq_length_filter]
    cases h.linkEffect with
    -- No link is written.
    | same links => exact .inl (by rw [links])
    | recorded c attempt made link id completedAt correlationId now eq inHand links =>
      rw [links, List.countP_append, List.countP_singleton]
      by_cases hc : c.id = caseId
      · -- It is a link of this case.
        refine .inr ⟨by simp [paymentRequestOf, hc], ?_, ?_⟩
        · rw [CaseStep.case?_of_inHand inHand, Option.map_some, hc]
        · rcases inHand with hphase | hphase <;> rw [hphase] <;> rfl
      · -- It is a link of another one.
        exact .inl (by simp [paymentRequestOf, hc])
    | settled d known settles links =>
      -- an observation leaves each link with its case
      left
      rw [links]
      exact Table.countP_update fun _ => rfl
  | _ => exact .inl rfl

/-- So no more links of a case are stored than it has been executed. -/
theorem Lawful.length_linksOf_le_executions (h : Lawful H) (caseId : Uuid) :
    (H.replay.linksOf caseId).length ≤ H.executions caseId := by
  -- Each link more is counted with the event that stores it.
  have hstores : (H.replay.linksOf caseId).length ≤ History.count (History.stores caseId) H := by
    induction h using Lawful.induction with
    | refl => rfl
    | @cons H t e before hlawful ih =>
      rw [History.count_cons]
      rcases hlawful.length_linksOf_cons caseId with hsame | ⟨hmore, -, -⟩
      · omega
      · have hcounted : History.stores caseId H t e = true :=
          decide_eq_true (by rw [hmore]; exact Nat.lt_succ_self _)
        rw [hcounted, hmore, Bool.toNat_true]
        omega
  -- And each execution stores one at most, as it then has the case in hand no more.
  refine hstores.trans (History.count_le_of_onlyBy fun u => ?_)
  refine (Nat.le_add_right _ _).trans
    (h.count_onlyBy_le (fun ph => ph.case?.map RecoveryCase.id) rfl ?_ ?_)
  · -- only a claim takes the case in hand
    intro ph e hstands
    obtain ⟨c, hc, hid⟩ := Option.map_eq_some_iff.mp hstands
    rcases Phase.case?_next hc with hc | ⟨hidle, sts, hsts, hclaim⟩
    · exact .inl (by rw [hc, Option.map_some, hid])
    · exact .inr ⟨hidle, sts, c, hsts, hclaim, hid⟩
  · -- what stores a link finds the case in hand and leaves it so no more
    intro H e hlawful hcounted
    rw [History.stores, decide_eq_true_eq] at hcounted
    rcases hlawful.length_linksOf_cons caseId with hsame | ⟨-, hhand, hnone⟩
    · omega
    · exact ⟨hhand, by rw [hnone, Option.map_none]⟩

/-! ### The loop -/

/-- What an event does to the status of a case: nothing, unless it opens the case or moves
it. -/
theorem Lawful.statusOf_cons (h : Lawful ((t, e) :: H)) (caseId : Uuid) :
    (History.replay ((t, e) :: H)).statusOf caseId = H.replay.statusOf caseId ∨
      H.replay.statusOf caseId = none ∧
        (History.replay ((t, e) :: H)).statusOf caseId = some .discovered ∨
      ∃ sts c c', e = .committed sts ∧ CaseStep (H.own t) H.replay sts c c' ∧
        H.replay.recoveryCases.get? caseId = some c ∧
        H.replay.statusOf caseId = some c.status ∧
        (History.replay ((t, e) :: H)).statusOf caseId = some c'.status := by
  cases e with
  | committed sts =>
    rw [History.replay_cons, Event.applyTo_committed]
    simp only [Db.statusOf]
    cases h.caseEffect with
    | same quiet cases => exact .inl (by rw [cases])
    | opened rows quiet cases fresh =>
      rw [cases, Table.get?_append]
      -- The case is one of the new rows, or was there before, or neither.
      cases hrow : H.replay.recoveryCases.get? caseId with
      | some c => exact .inl rfl
      | none =>
        rw [Option.none_or]
        cases hnew : Table.get? rows caseId with
        | none => exact .inl rfl
        | some c =>
          obtain ⟨payment, id, createdAt, rfl, -⟩ := fresh c (Table.mem_of_get? hnew)
          exact .inr (.inl ⟨rfl, rfl⟩)
    | moved c c' step row cases =>
      rw [cases]
      by_cases hid : c.id = caseId
      · -- It is this case that moves.
        rw [hid] at row
        refine .inr (.inr ⟨sts, c, c', rfl, step, row, ?_, ?_⟩)
        · rw [row, Option.map_some]
        · rw [if_pos hid, Option.map_some]
      · -- Another one does.
        exact .inl (by rw [if_neg hid])
  | _ => exact .inl rfl

/-- The case is not there yet, or waits for a diagnosis or an execution. -/
def Pending (status : Option RecoveryCaseStatus) : Bool :=
  status ∈ [none, some .discovered, some .eligible, some .approved, some .failed]

/-- A move that is an execution ends the waiting, and only one that is a failure starts it. -/
theorem CaseStep.pending {h : List Event} {db : Db} {c c' : RecoveryCase}
    (hs : CaseStep h db sts c c') :
    (decide (c.status = .approved ∧ c'.status = .executing)).toNat +
        (Pending (some c'.status)).toNat ≤
      (decide (c.status = .executing ∧ c'.status = .failed)).toNat +
        (Pending (some c.status)).toNat := by
  rcases hs.status with ⟨hc, hc'⟩ | ⟨hc, hc'⟩ | ⟨hc, hc'⟩ | ⟨hc, hc'⟩
  · rw [hc, hc']
    decide
  · -- A diagnosis starts from a status that waits, and neither of the two moves is one.
    have hpending : Pending (some c.status) = true ∧ c.status ≠ .approved ∧
        c.status ≠ .executing := by
      revert hc
      cases c.status <;> decide
    obtain ⟨hpending, happroved, hexecuting⟩ := hpending
    rw [hpending]
    simpa [happroved, hexecuting] using Bool.toNat_le _
  · -- An execution starts, or is withheld.
    rw [hc]
    rcases hc' with hc' | hc' <;> rw [hc'] <;> decide
  · -- An execution records or gives up, or a delivery settles the case.
    rw [hc]
    rcases hc' with hc' | hc' | hc' | hc' <;> rw [hc'] <;> decide

/-- **A case is executed at most once more than it has failed**, and no more often while it
waits for the next execution. -/
theorem Lawful.executions_le_failures (h : Lawful H) (caseId : Uuid) :
    H.executions caseId + (Pending (H.replay.statusOf caseId)).toNat ≤ H.failures caseId + 1 := by
  induction h using Lawful.induction with
  | refl => exact Nat.le_refl 1
  | @cons H t e before hlawful ih =>
    simp only [History.executions, History.failures, History.count_cons, History.takes] at ih ⊢
    rcases hlawful.statusOf_cons caseId with hsame | ⟨hnone, hopened⟩ |
      ⟨sts, c, c', rfl, step, -, hbefore, hafter⟩
    · -- no status is both the one before and the one after
      have hstays : ∀ {source target : RecoveryCaseStatus}, source ≠ target →
          ¬ (H.replay.statusOf caseId = some source ∧ H.replay.statusOf caseId = some target) :=
        fun hne hboth => hne (Option.some.inj (hboth.1.symm.trans hboth.2))
      rw [hsame, decide_eq_false (hstays (by decide)), decide_eq_false (hstays (by decide))]
      exact ih
    · -- The case is opened, and waits.
      rw [hnone] at ih ⊢
      rw [hopened]
      simpa [Pending] using ih
    · -- It moves.
      have hstep := step.pending
      rw [hbefore] at ih ⊢
      rw [hafter]
      simp only [Option.some.injEq]
      omega

/-! ### The cap -/

/-- A transaction that approves the case after a failure finds it to have failed less often
than the cap. -/
def ReapprovesBelow (caseId : Uuid) (cap : ℤ) (H : History) (db : Db) (_ : Tid)
    (sts : List Stmt) : Prop :=
  db.statusOf caseId = some .failed →
    (Store.applyAll sts db).statusOf caseId = some .approved → (H.failures caseId : ℤ) < cap

instance (caseId : Uuid) (cap : ℤ) (H : History) (db : Db) (t : Tid) (sts : List Stmt) :
    Decidable (ReapprovesBelow caseId cap H db t sts) :=
  inferInstanceAs (Decidable (db.statusOf caseId = some .failed →
    (Store.applyAll sts db).statusOf caseId = some .approved → (H.failures caseId : ℤ) < cap))

/-- The executions of a case in this status are within the cap, with one to spare if it is
approved, unless it has not been executed at all. -/
structure WithinCap (cap : ℤ) (executions : ℕ) (status : Option RecoveryCaseStatus) : Prop where
  bounded : (executions : ℤ) ≤ cap
  unexecuted : status = none ∨ status = some .discovered ∨ status = some .eligible → executions = 0
  approved : status = some .approved → executions = 0 ∨ (executions : ℤ) < cap

/-- In the other statuses there is only the bound. -/
theorem WithinCap.of_bounded {cap : ℤ} {executions : ℕ} {status : RecoveryCaseStatus}
    (hbounded : (executions : ℤ) ≤ cap)
    (hstatus : status ∉ [RecoveryCaseStatus.discovered, .eligible, .approved]) :
    WithinCap cap executions (some status) where
  bounded := hbounded
  unexecuted h := by
    rcases h with h | h | h
    · cases h
    · exact absurd (by simp [Option.some.inj h]) hstatus
    · exact absurd (by simp [Option.some.inj h]) hstatus
  approved h := absurd (by simp [Option.some.inj h]) hstatus

/-- An execution goes ahead only if the cap, as it has been configured, admits a contact. -/
theorem Lawful.contacts_pos {x : Execution} (h : Lawful H) (cleared : x.Cleared)
    (hrow : H.replay.recoveryCases.get? caseId = some x.recoveryCase)
    (happroved : x.recoveryCase.status = .approved) :
    0 < x.settings.policyMaxCustomerContacts := by
  have hinv := h.caseInv hrow
  have hallowed := cleared.allowed
  rw [Execution.decision, Execution.action_eq cleared] at hallowed
  have hwithin := WithinPolicy.of_allowed (hinv.ready (.inl happroved)).2 hallowed
  rw [← hinv.contacts]
  exact hwithin.contacts

/-- Only a claim takes a case from APPROVED to EXECUTING. -/
theorem CaseStep.of_claimed {h : List Event} {db : Db} {c c' : RecoveryCase}
    (hs : CaseStep h db sts c c') (happroved : c.status = .approved)
    (hexecuting : c'.status = .executing) :
    ∃ x : Execution, x.recoveryCase = c ∧ x.Cleared ∧ x.reads <+: h := by
  cases hs with
  | claimed x idle known cleared reads => exact ⟨x, rfl, cleared, reads⟩
  | diagnosed d known status =>
    rw [happroved] at status
    exact absurd status (by decide)
  | recorded c attempt made link id completedAt correlationId t inHand =>
    have hc := executing_of_phase (CaseStep.case?_of_inHand inHand)
    exact absurd (hc.symm.trans happroved) (by simp)
  | _ => cases hexecuting

/-- A move keeps the executions of its case within the cap, if an approval after a failure and
an execution find room below it. -/
theorem CaseStep.withinCap {h : List Event} {db : Db} {c c' : RecoveryCase} {cap : ℤ}
    {executions : ℕ} (hs : CaseStep h db sts c c')
    (hw : WithinCap cap executions (some c.status))
    (hagain : c.status = .failed → c'.status = .approved → (executions : ℤ) < cap)
    (hpos : c.status = .approved → c'.status = .executing → 0 < cap) :
    WithinCap cap
      (executions + (decide (c.status = .approved ∧ c'.status = .executing)).toNat)
      (some c'.status) := by
  rcases hs.status with ⟨hc, hc'⟩ | ⟨hc, hc'⟩ | ⟨hc, hc'⟩ | ⟨hc, hc'⟩
  · rw [hc, hc']
    exact .of_bounded hw.bounded (by decide)
  · -- A diagnosis is no execution, so the number stays.
    have hno : c.status ≠ .approved := fun happroved => by
      rw [happroved] at hc
      exact absurd hc (by decide)
    rw [decide_eq_false fun hboth => hno hboth.1]
    rcases hc' with hc' | hc' | hc'
    · -- the case is approved for the first time, or after a failure
      have hroom : executions = 0 ∨ (executions : ℤ) < cap := by
        by_cases hfailed : c.status = .failed
        · exact .inr (hagain hfailed hc')
        · refine .inl (hw.unexecuted (.inr ?_))
          revert hc hfailed
          cases c.status <;> decide
      rw [hc']
      exact { bounded := hw.bounded, unexecuted := by simp, approved := fun _ => hroom }
    · rw [hc']
      exact .of_bounded hw.bounded (by decide)
    · rw [hc']
      exact .of_bounded hw.bounded (by decide)
  · rcases hc' with hc' | hc'
    · -- One execution more, for which there was room.
      have hpos := hpos hc hc'
      have hroom := hw.approved (congrArg some hc)
      rw [hc, hc']
      refine .of_bounded ?_ (by decide)
      simp only [and_self, decide_true, Bool.toNat_true, Nat.cast_add, Nat.cast_one]
      omega
    · rw [hc, hc']
      exact .of_bounded hw.bounded (by decide)
  · rw [hc]
    rcases hc' with hc' | hc' | hc' | hc' <;> rw [hc'] <;>
      exact .of_bounded hw.bounded (by decide)

/-- **In a run that approves a failed case again only below the cap, its executions are
within the cap.** -/
theorem Extends.withinCap {cap : ℤ} (h : Extends (CommitsMeet (ReapprovesBelow caseId cap)) [] H)
    (hcap : 0 ≤ cap)
    (hsettings : ∀ t settings, (t, .configured settings) ∈ H →
      settings.policyMaxCustomerContacts = cap) :
    WithinCap cap (H.executions caseId) (H.replay.statusOf caseId) := by
  induction h using Extends.induction with
  | refl => exact { bounded := hcap, unexecuted := fun _ => rfl, approved := fun _ => .inl rfl }
  | @cons H t e before hlawful cond _ ih =>
    have hl : Lawful H := hlawful.cons_inv.1
    have ih := ih fun u settings hmem => hsettings u settings (List.mem_cons_of_mem _ hmem)
    have hcount : History.executions caseId ((t, e) :: H) = H.executions caseId +
        (decide (H.replay.statusOf caseId = some .approved ∧
          (History.replay ((t, e) :: H)).statusOf caseId = some .executing)).toNat := rfl
    rcases hlawful.statusOf_cons caseId with hsame | ⟨hnone, hopened⟩ |
      ⟨sts, c, c', rfl, step, hrow, hbefore, hafter⟩
    · -- The status stays, so nothing is counted.
      have hno : ¬ (H.replay.statusOf caseId = some .approved ∧
          H.replay.statusOf caseId = some .executing) := fun hboth =>
        absurd (hboth.1.symm.trans hboth.2) (by simp)
      rw [hcount, hsame, decide_eq_false hno]
      exact ih
    · -- The case is opened, without an execution.
      rw [hcount, hopened, hnone]
      exact { bounded := ih.bounded, unexecuted := fun _ => ih.unexecuted (.inl hnone),
              approved := fun he => by cases he }
    · have hexecutions := hl.executions_le_failures caseId
      rw [hbefore] at ih hexecutions
      rw [hcount, hbefore, hafter]
      simp only [Option.some.injEq]
      refine step.withinCap ih (fun hfailed happroved => ?_) fun happroved hexecuting => ?_
      · -- it has been executed no more often than it has failed
        rw [hfailed] at hexecutions hbefore
        rw [happroved] at hafter
        have hbelow := cond sts rfl hbefore hafter
        have hpending : Pending (some .failed) = true := rfl
        rw [hpending, Bool.toNat_true] at hexecutions
        omega
      · -- the execution has found the cap to admit a contact
        obtain ⟨x, rfl, cleared, reads⟩ := step.of_claimed happroved hexecuting
        have hread : (t, .configured x.settings) ∈ H :=
          History.mem_own.mp (reads.subset (by simp [Execution.reads]))
        rw [← hsettings t _ (List.mem_cons_of_mem _ hread)]
        exact hl.contacts_pos cleared hrow happroved

/-- **The contact cap over a whole run.** In a run with a fixed cap that approves the case
after a failure only while it has failed less often than the cap, the links that the provider
has made for the case, and those that are stored, are within the cap. -/
theorem links_le_contacts {w : World} {settings : Settings}
    (h : machine.ReachesVia
      (OnCommit (ReapprovesBelow caseId settings.policyMaxCustomerContacts)) World.empty w)
    (hsettings : ∀ t settings', (t, .configured settings') ∈ w.shared.history →
      settings'.policyMaxCustomerContacts = settings.policyMaxCustomerContacts) :
    (History.linksMade caseId w.shared.history : ℤ) ≤ settings.policyMaxCustomerContacts ∧
      ((w.shared.db.linksOf caseId).length : ℤ) ≤ settings.policyMaxCustomerContacts := by
  have hl := Reachable.lawful h.reaches
  have hext := extends_of_onCommit Machine.Reaches.refl h
  have hbounded := (Extends.withinCap hext settings.maxCustomerContacts_ge hsettings).bounded
  have hmade := (History.linksMade_le_calls caseId w.shared.history).trans
    (hl.calls_le_executions caseId)
  have hstored := hl.length_linksOf_le_executions caseId
  rw [Reachable.db_eq h.reaches]
  constructor
  · exact (Int.ofNat_le.mpr hmade).trans hbounded
  · exact (Int.ofNat_le.mpr hstored).trans hbounded

/-- The cap of the configuration is the given one. -/
def Event.caps (cap : ℤ) : Event → Bool
  | .configured settings => settings.policyMaxCustomerContacts = cap
  | _ => true

/-- If every configuration in the record has the cap, each that was read has. -/
theorem cap_of_all {cap : ℤ} (hall : H.all (fun p => p.2.caps cap) = true) (t : Tid)
    (settings : Settings) (hmem : (t, .configured settings) ∈ H) :
    settings.policyMaxCustomerContacts = cap :=
  of_decide_eq_true (List.all_eq_true.mp hall _ hmem)

set_option maxRecDepth 10000 in
/-- Two links were made for the case that is executed again, and the cap is 2. -/
theorem links_le_contacts_expired :
    History.linksMade 3 (World.empty.after Sample.expired).shared.history = 2 ∧
      (History.linksMade 3 (World.empty.after Sample.expired).shared.history : ℤ) ≤
        Sample.settings.policyMaxCustomerContacts ∧
      (((World.empty.after Sample.expired).shared.db.linksOf 3).length : ℤ) ≤
        Sample.settings.policyMaxCustomerContacts :=
  ⟨by decide +kernel, links_le_contacts (World.reachesVia_after (by decide +kernel))
    (cap_of_all (by decide +kernel))⟩

/-- The second link expires as well, and the case is diagnosed and executed a third time. -/
def Sample.expiredAgain : List Action :=
  expired ++ alone 6 (.webhook (event "k'" "M" "expired" none) "c") (deliver ++ settle) ++
    alone 7 (.diagnose 3 "c") (diagnose false .sendPaymentLink) ++
    alone 8 (.execute 3 "c") (execute 30 31 32 "N")

set_option maxRecDepth 10000 in
/-- Three links for a case whose customer may be contacted twice. -/
theorem expiredAgain_exceedsContacts :
    Reachable (World.empty.after Sample.expiredAgain) ∧
      (∀ t settings, (t, .configured settings) ∈
          (World.empty.after Sample.expiredAgain).shared.history →
        settings.policyMaxCustomerContacts = Sample.settings.policyMaxCustomerContacts) ∧
      Sample.settings.policyMaxCustomerContacts = 2 ∧
      History.linksMade 3 (World.empty.after Sample.expiredAgain).shared.history = 3 ∧
      ((World.empty.after Sample.expiredAgain).shared.db.linksOf 3).length = 3 :=
  ⟨World.reachable_after _, cap_of_all (by decide +kernel), rfl, by decide +kernel,
    by decide +kernel⟩

end RecoverAI
