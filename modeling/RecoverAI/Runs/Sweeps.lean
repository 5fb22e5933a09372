import RecoverAI.Models.Ordering
import RecoverAI.Runs.Openings
import RecoverAI.Runs.Schedules
import RecoverAI.Services.Lone

/-!
# Sweeps of discovery

A sweep that no other operation disturbs opens a case for the oldest failed payments
without one, as many as its limit allows, and touches nothing else (`Swept`). So sweeps in
a row work the backlog off, each from where the last one stopped, and once it is empty a
sweep changes nothing.
-/

namespace RecoverAI

open Interleave Service

variable {t : Tid} {db : Db} {sts : List Stmt} {us : List Uuid} {correlationId : String}
  {limit : ℕ}

/-! ### Opening cases -/

/-- The payment a case is opened for. -/
def Opening.payment (o : Opening) : Payment := o.2.1

/-- The case as it is opened. -/
def Opening.recoveryCase (o : Opening) : RecoveryCase := openedCase o.1 o.2.1 o.2.2.1

/-- The event that records it. -/
def Opening.event (o : Opening) (correlationId : String) : AuditEvent where
  entity := .recoveryCase o.1
  body := .recoveryCaseCreated o.2.1.id o.2.1.amount "ingestion"
  actorType := .system
  correlationId := some correlationId
  createdAt := o.2.2.2

/-- The database with some more cases, each with its event. -/
def Db.withOpenings (db : Db) (openings : List Opening) (correlationId : String) : Db :=
  { db with
    recoveryCases := db.recoveryCases ++ openings.map Opening.recoveryCase
    auditEvents := db.auditEvents ++ openings.map fun o => o.event correlationId }

@[simp] theorem Db.withOpenings_nil (db : Db) (correlationId : String) :
    db.withOpenings [] correlationId = db := by
  simp [withOpenings]

theorem Opening.allStmts_nil (correlationId : String) : allStmts [] correlationId = [] := rfl

/-- The statements of a list of openings, taken apart. -/
theorem Opening.allStmts_cons (o : Opening) (openings : List Opening) (correlationId : String) :
    allStmts (o :: openings) correlationId = o.stmts correlationId ++ allStmts openings correlationId :=
  rfl

/-- What the statements of some openings do to the database. -/
theorem applyAll_allStmts (openings : List Opening) (correlationId : String) (db : Db) :
    Store.applyAll (Opening.allStmts openings correlationId) db =
      db.withOpenings openings correlationId := by
  induction openings generalizing db with
  | nil => exact (db.withOpenings_nil correlationId).symm
  | cons o openings ih =>
    rw [Opening.allStmts_cons, Store.applyAll_append, ih]
    simp only [Opening.stmts, openingStmts, Store.applyAll_cons, Store.applyAll_nil, Store.apply,
      Stmt.apply, auditStmt, Db.withOpenings, List.map_cons, List.append_assoc, List.singleton_append]
    rfl

/-- A fresh UUID stays fresh when a case is opened under another one. -/
theorem Db.Fresh.opening {o : Opening} (h : db.Fresh (o.1 :: us)) :
    (Store.applyAll (o.stmts correlationId) db).Fresh us := by
  have hnodup := List.nodup_cons.mp h.nodup
  refine ⟨hnodup.2, fun u hu => h.customer u (List.mem_cons_of_mem _ hu),
    fun u hu => h.payment u (List.mem_cons_of_mem _ hu), fun u hu => ?_⟩
  have hne : ¬ o.recoveryCase.id = u := by
    -- The case that is opened has the UUID that was drawn, and that is not drawn again.
    rintro rfl
    exact hnodup.1 hu
  change (db.recoveryCases ++ [o.recoveryCase]).get? u = none
  rw [Table.get?_append, h.recoveryCase u (List.mem_cons_of_mem _ hu), Table.get?_singleton]
  exact if_neg hne

/-- A case is opened for a payment that has none. -/
theorem yields_createCase {payment : Payment}
    {Q : RecoveryCase → Db → List Stmt → List Uuid → Prop}
    (hfresh : (Store.applyAll sts db).Fresh us)
    (huncased : ¬ (Store.applyAll sts db).Cased payment.id)
    (h : ∀ (o : Opening) us', o.payment = payment →
      Store.checkAll (o.stmts correlationId) (Store.applyAll sts db) = none →
      (Store.applyAll (sts ++ o.stmts correlationId) db).Fresh us' →
      Q o.recoveryCase db (sts ++ o.stmts correlationId) us') :
    Yields t (createCase payment correlationId) db sts us Q := by
  refine Yields.bind (yields_uuid4 fun id us' hus => Yields.bind (yields_now fun createdAt => ?_))
  subst hus
  -- Neither the UUID nor the payment is in use, so the insert passes.
  have hid := hfresh.recoveryCase id List.mem_cons_self
  have hchecked : Store.checkAll [.insertCase (openedCase id payment createdAt)]
      (Store.applyAll sts db) = none := by
    rw [Store.checkAll_cons_eq_none]
    refine ⟨?_, rfl⟩
    change Stmt.unlessTaken (((Store.applyAll sts db).recoveryCases.get? id).isSome ||
      Stmt.taken (Store.applyAll sts db).recoveryCases RecoveryCase.paymentId payment.id) = none
    rw [hid, Bool.eq_false_of_not_eq_true huncased]
    rfl
  refine Yields.bind (yields_flush hchecked ?_)
  refine Yields.bind (yields_recordEvent rfl fun auditedAt => yields_pure ?_)
  rw [List.append_assoc]
  refine h (id, payment, createdAt, auditedAt) us' rfl ?_ ?_
  · rw [Opening.stmts, openingStmts, ← List.singleton_append, Store.checkAll_append, hchecked]
    rfl
  · rw [Store.applyAll_append]
    exact hfresh.opening (o := (id, payment, createdAt, auditedAt))

/-- Cases are opened for payments that have none, in their order, by induction on them. -/
theorem yields_createCases {payments : List Payment}
    {Q : List Uuid → Db → List Stmt → List Uuid → Prop}
    (hfresh : (Store.applyAll sts db).Fresh us) (hpayments : (payments.map Payment.id).Nodup)
    (huncased : ∀ p ∈ payments, ¬ (Store.applyAll sts db).Cased p.id)
    (h : ∀ (openings : List Opening) us', openings.map Opening.payment = payments →
      Store.checkAll (Opening.allStmts openings correlationId) (Store.applyAll sts db) = none →
      Q (openings.map Prod.fst) db (sts ++ Opening.allStmts openings correlationId) us') :
    Yields t (createCases correlationId payments) db sts us Q := by
  induction payments generalizing sts us Q with
  | nil =>
    refine yields_pure ?_
    have hnil := h [] us rfl rfl
    rwa [Opening.allStmts_nil, List.append_nil] at hnil
  -- One case is opened, and the others on top of it.
  | cons payment payments ih =>
    rw [List.map_cons, List.nodup_cons] at hpayments
    obtain ⟨hpayment, hpayments⟩ := hpayments
    refine Yields.bind (yields_createCase hfresh (huncased payment List.mem_cons_self) ?_)
    rintro o us' rfl hchecked hfresh'
    refine Yields.bind (ih hfresh' hpayments ?_ ?_)
    · -- the case that has just been opened is of another payment
      intro p hp hcased
      obtain ⟨c, hc, hcp⟩ := Db.cased_iff.mp hcased
      rw [Store.applyAll_append] at hc
      rcases List.mem_append.mp hc with hc | hc
      · exact huncased p (List.mem_cons_of_mem _ hp) (Db.cased_iff.mpr ⟨c, hc, hcp⟩)
      · rw [List.mem_singleton.mp hc] at hcp
        exact hpayment (List.mem_map.mpr ⟨p, hp, hcp.symm⟩)
    · rintro openings us'' rfl hcheckeds
      refine yields_pure ?_
      have hall := h (o :: openings) us'' rfl ?_
      · -- The statements of all are those of the first and those of the others.
        rwa [Opening.allStmts_cons, ← List.append_assoc] at hall
      · rw [Opening.allStmts_cons, Store.checkAll_append, hchecked, Option.none_or,
          ← Store.applyAll_append]
        exact hcheckeds

/-! ### One sweep -/

/-- The failed payments without a case. -/
def Db.failedUncased (db : Db) : List Payment := db.payments.filter db.uncased

/-- The failed payments with a case. -/
def Db.failedCased (db : Db) : List Payment :=
  db.payments.filter fun p => p.status = .failed ∧ !db.uncased p

/-- A payment of the backlog is a failed one without a case. -/
theorem Db.mem_failedUncased {p : Payment} :
    p ∈ db.failedUncased ↔ p ∈ db.payments ∧ p.status = .failed ∧ ¬ db.Cased p.id := by
  simp [failedUncased, uncased, Cased]

/-- **What a sweep does**: which cases it opens, what the database is after it, and what it
reports. -/
structure Swept (correlationId : String) (limit : ℕ) (db db' : Db) (openings : List Opening)
    (report : DiscoveryReport) : Prop where
  /-- The payments are failed ones without a case, and no two are the same. -/
  found : ∀ o ∈ openings, o.payment ∈ db.failedUncased
  distinct : (openings.map Opening.payment).Nodup
  /-- There are as many as the limit allows. -/
  length : openings.length = min limit db.failedUncased.length
  /-- None that is left out is older. -/
  oldest : ∀ o ∈ openings, ∀ p ∈ db.failedUncased, p ∉ openings.map Opening.payment →
    o.payment.createdAt ≤ p.createdAt
  /-- Beside the cases and their events nothing changes. -/
  database : db' = db.withOpenings openings correlationId
  scanned : report.scanned = openings.length
  created : report.created = openings.length
  skippedExisting : report.skippedExisting = db.failedCased.length
  caseIds : report.caseIds = openings.map fun o => o.recoveryCase.id

/-- A sweep that runs alone does this, and leaves the keys unique. -/
theorem yields_discoverFailedPayments (hfresh : db.Fresh us) (hdistinct : db.Distinct) :
    Yields t (discoverFailedPayments limit correlationId) db [] us fun report db' sts' _ =>
      sts' = [] ∧ db'.Distinct ∧ ∃ openings, Swept correlationId limit db db' openings report := by
  refine Yields.bind (yields_select fun ranking => ?_)
  refine Yields.bind (yields_select fun _ => ?_)
  -- The candidates are the oldest failed payments without a case.
  set candidates := (orderedBy Payment.createdAt ranking db.failedUncased).take limit with hcand
  have hmem : ∀ p ∈ candidates, p ∈ db.failedUncased := fun p hp =>
    mem_orderedBy.mp (List.mem_of_mem_take hp)
  -- They have distinct ids, as rows of one table.
  have hids : (candidates.map Payment.id).Nodup := by
    have hsub : (db.failedUncased.map Payment.id).Nodup :=
      hdistinct.paymentId.sublist (List.filter_sublist.map _)
    have hperm := (orderedBy_perm Payment.createdAt ranking db.failedUncased).map Payment.id
    exact (hperm.nodup_iff.mpr hsub).sublist ((List.take_sublist _ _).map _)
  refine Yields.bind (yields_createCases hfresh hids
    (fun p hp => (Db.mem_failedUncased.mp (hmem p hp)).2.2) ?_)
  intro openings us' hopenings hchecked
  change openings.map Opening.payment = candidates at hopenings
  refine Yields.bind (yields_commit (yields_pure ⟨rfl, hdistinct.applyAll hchecked, openings, ?_⟩))
  -- One case is opened for each of them.
  have hlength : openings.length = candidates.length := by
    rw [← hopenings, List.length_map]
  have hin : ∀ o ∈ openings, o.payment ∈ candidates := fun o ho =>
    hopenings ▸ List.mem_map_of_mem ho
  exact
    { found := fun o ho => hmem _ (hin o ho)
      distinct := by
        rw [hopenings]
        exact List.Nodup.of_map _ hids
      length := by rw [hlength, hcand, List.length_take, length_orderedBy]
      oldest := fun o ho p hp hout => by
        rw [hopenings] at hout
        exact le_of_mem_take_orderedBy (hin o ho) hp hout
      database := applyAll_allStmts openings correlationId db
      scanned := hlength.symm
      created := List.length_map _
      skippedExisting := rfl
      caseIds := rfl }

namespace Swept

variable {db' : Db} {openings : List Opening} {report : DiscoveryReport}

/-- A sweep leaves the payments alone. -/
theorem payments (h : Swept correlationId limit db db' openings report) :
    db'.payments = db.payments := by
  rw [h.database]
  rfl

/-- A payment has a case after the sweep if it had one or the sweep has found it. -/
theorem cased_iff (h : Swept correlationId limit db db' openings report) {paymentId : Uuid} :
    db'.Cased paymentId ↔ db.Cased paymentId ∨ ∃ o ∈ openings, o.payment.id = paymentId := by
  rw [Db.cased_iff, Db.cased_iff, h.database]
  change (∃ c ∈ db.recoveryCases ++ openings.map Opening.recoveryCase, _) ↔ _
  -- The cases are the old ones and the opened ones.
  simp only [List.mem_append, List.mem_map, or_and_right, exists_or, exists_exists_and_eq_and]
  rfl

/-- The payments that are left are those that have not been found. -/
theorem failedUncased_eq (h : Swept correlationId limit db db' openings report)
    (hdistinct : db.Distinct) : db'.failedUncased =
      db.failedUncased.filter fun p => p ∉ openings.map Opening.payment := by
  rw [Db.failedUncased, Db.failedUncased, h.payments, List.filter_filter]
  refine List.filter_congr fun p hp => ?_
  rw [Bool.eq_iff_iff, Bool.and_eq_true, decide_eq_true_eq]
  have hold : ∀ db : Db, db.uncased p = true ↔ p.status = .failed ∧ ¬ db.Cased p.id := fun db => by
    simp [Db.uncased, Db.Cased]
  rw [hold, hold, h.cased_iff, not_or]
  constructor
  · -- What still has no case has not been found.
    rintro ⟨hfailed, huncased, hnone⟩
    refine ⟨fun hmem => ?_, hfailed, huncased⟩
    obtain ⟨o, ho, rfl⟩ := List.mem_map.mp hmem
    exact hnone ⟨o, ho, rfl⟩
  · -- What has not been found has no case still.
    rintro ⟨hnone, hfailed, huncased⟩
    refine ⟨hfailed, huncased, ?_⟩
    rintro ⟨o, ho, hid⟩
    -- ids tell payments apart
    have hpayment := (Db.mem_failedUncased.mp (h.found o ho)).1
    rw [← hdistinct.paymentId.eq_of_mem hpayment hp hid] at hnone
    exact hnone (List.mem_map_of_mem ho)

/-- The backlog shrinks by what has been found. -/
theorem length_failedUncased (h : Swept correlationId limit db db' openings report)
    (hdistinct : db.Distinct) :
    db'.failedUncased.length = db.failedUncased.length - limit := by
  have hnodup : db.failedUncased.Nodup :=
    (List.Nodup.of_map _ hdistinct.paymentId).filter _
  -- As lists without repetition, the found payments of the backlog and the openings agree.
  have hperm : (db.failedUncased.filter fun p => p ∈ openings.map Opening.payment).Perm
      (openings.map Opening.payment) := by
    refine (List.perm_ext_iff_of_nodup (hnodup.filter _) h.distinct).mpr fun p => ?_
    rw [List.mem_filter, decide_eq_true_eq]
    refine ⟨And.right, fun hmem => ⟨?_, hmem⟩⟩
    obtain ⟨o, ho, rfl⟩ := List.mem_map.mp hmem
    exact h.found o ho
  -- The backlog is the found payments and the others.
  have hsplit := List.length_eq_length_filter_add (l := db.failedUncased)
    (fun p => decide (p ∈ openings.map Opening.payment))
  rw [hperm.length_eq, List.length_map, h.length] at hsplit
  have hleft : (db.failedUncased.filter fun p => !decide (p ∈ openings.map Opening.payment)) =
      db'.failedUncased := by
    rw [h.failedUncased_eq hdistinct]
    exact List.filter_congr fun p _ => (decide_not).symm
  rw [hleft] at hsplit
  omega

end Swept

/-! ### Sweeps in a row -/

/-- One sweep of a run: the database before and after it, the correlation id it was
requested with, and how it ended. -/
structure Sweep where
  before : Db
  after : Db
  correlationId : String
  outcome : Outcome

/-- Sweeps with a limit, one after another and with nothing else going on. Each draws UUIDs
that are not in use. -/
inductive Sweeps (limit : ℕ) : State → List Sweep → State → Prop
  | nil (s : State) : Sweeps limit s [] s
  | cons {s s₁ s' : State} {t : Tid} {correlationId : String} {is : List Input}
      {outcome : Outcome} {sweeps : List Sweep} (fresh : s.db.Fresh (uuidsOf is))
      (performed : machine.perform? t (.discover limit correlationId) is s = some (outcome, s₁))
      (rest : Sweeps limit s₁ sweeps s') :
      Sweeps limit s (⟨s.db, s₁.db, correlationId, outcome⟩ :: sweeps) s'

/-- What a sweep that is performed alone does. -/
theorem Idle.swept {s s' : State} {is : List Input} {outcome : Outcome} (hs : Idle s)
    (hfresh : s.db.Fresh (uuidsOf is))
    (h : machine.perform? t (.discover limit correlationId) is s = some (outcome, s')) :
    Idle s' ∧ ∃ openings report, outcome = .ok (.discovered report) ∧
      Swept correlationId limit s.db s'.db openings report := by
  have hyields : Yields t (Op.service (.discover limit correlationId)) s.db [] (uuidsOf is)
      fun r db' sts' _ => sts' = [] ∧ db'.Distinct ∧ ∃ openings report, r = .discovered report ∧
        Swept correlationId limit s.db db' openings report := by
    -- The service does this, and the operation is the service.
    refine Yields.map (Yields.mono (yields_discoverFailedPayments hfresh hs.distinct) ?_)
    rintro report db' sts' us' ⟨rfl, hdistinct, openings, hswept⟩
    exact ⟨rfl, hdistinct, openings, report, rfl, hswept⟩
  obtain ⟨hs', r, rfl, openings, report, rfl, hswept⟩ := hs.of_yields hyields h
  exact ⟨hs', openings, report, rfl, hswept⟩

/-- The failed payments that have got a case between two databases. -/
def Db.covered (db db' : Db) : List Payment :=
  db.failedUncased.filter fun p => Stmt.taken db'.recoveryCases RecoveryCase.paymentId p.id

/-- What sweeps in a row keep: the payments, the cases there are, and how far the backlog is
worked off. -/
structure Drained (limit k : ℕ) (db db' : Db) : Prop where
  payments : db'.payments = db.payments
  cased : ∀ paymentId, db.Cased paymentId → db'.Cased paymentId
  backlog : db'.failedUncased.length = db.failedUncased.length - k * limit

/-- Each sweep takes up to its limit off the backlog, by induction on the sweeps. -/
theorem Sweeps.drained {s s' : State} {sweeps : List Sweep} (h : Sweeps limit s sweeps s')
    (hs : Idle s) : Drained limit sweeps.length s.db s'.db := by
  induction h with
  | nil s => exact ⟨rfl, fun _ hcased => hcased, by rw [List.length_nil, Nat.zero_mul, Nat.sub_zero]⟩
  | cons fresh performed rest ih =>
    obtain ⟨hs₁, openings, report, -, hswept⟩ := hs.swept fresh performed
    -- The first sweep takes off up to the limit, and the others their share.
    obtain ⟨hpayments, hcased, hbacklog⟩ := ih hs₁
    refine ⟨hpayments.trans hswept.payments,
      fun paymentId hp => hcased _ (hswept.cased_iff.mpr (.inl hp)), ?_⟩
    rw [hbacklog, hswept.length_failedUncased hs.distinct, List.length_cons, Nat.sub_sub,
      Nat.succ_mul, Nat.add_comm]

/-- What is covered and what is left make up the backlog. -/
theorem Drained.length_covered {k : ℕ} {db' : Db} (h : Drained limit k db db') :
    (db.covered db').length = min (k * limit) db.failedUncased.length := by
  -- What is not covered is what is left.
  have hleft : (db.failedUncased.filter fun p =>
      !Stmt.taken db'.recoveryCases RecoveryCase.paymentId p.id) = db'.failedUncased := by
    rw [Db.failedUncased, Db.failedUncased, h.payments, List.filter_filter]
    refine List.filter_congr fun p _ => ?_
    have hcased := h.cased p.id
    cases hp : Stmt.taken db.recoveryCases RecoveryCase.paymentId p.id with
    | false => simp [Db.uncased, hp, Bool.and_comm]
    -- A payment with a case is on neither side.
    | true =>
      have hp' : Stmt.taken db'.recoveryCases RecoveryCase.paymentId p.id = true := hcased hp
      simp [Db.uncased, hp, hp']
  have hsplit := List.length_eq_length_filter_add (l := db.failedUncased)
    (fun p => Stmt.taken db'.recoveryCases RecoveryCase.paymentId p.id)
  rw [hleft, h.backlog] at hsplit
  change _ = (db.covered db').length + _ at hsplit
  omega

/-- A sweep that finds no payment changes nothing. -/
theorem Swept.eq_of_none {db' : Db} {openings : List Opening} {report : DiscoveryReport}
    (h : Swept correlationId limit db db' openings report) (hnone : db.failedUncased = []) :
    db' = db := by
  have hlength := h.length
  -- There is nothing to open, so nothing was opened.
  rw [hnone, List.length_nil, Nat.min_zero, List.length_eq_zero_iff] at hlength
  rw [h.database, hlength, Db.withOpenings_nil]

/-- Every sweep of a run is one that was performed alone. -/
theorem Sweeps.swept {s s' : State} {sweeps : List Sweep} (h : Sweeps limit s sweeps s')
    (hs : Idle s) : ∀ sweep ∈ sweeps, ∃ openings report,
      sweep.outcome = .ok (.discovered report) ∧
        Swept sweep.correlationId limit sweep.before sweep.after openings report := by
  induction h with
  | nil s => exact fun sweep hsweep => absurd hsweep List.not_mem_nil
  | cons fresh performed rest ih =>
    obtain ⟨hs₁, hswept⟩ := hs.swept fresh performed
    exact List.forall_mem_cons.mpr ⟨hswept, ih hs₁⟩

/-- **Discovery is exact and drains.** Every sweep of a run does what `Swept` says, the run
covers as many payments as its limits add up to, or all there are, no two of them the same,
and a sweep that finds none left changes nothing. -/
theorem sweeps_exact {s s' : State} {sweeps : List Sweep} (hs : Idle s)
    (h : Sweeps limit s sweeps s') :
    (∀ sweep ∈ sweeps, ∃ openings report, sweep.outcome = .ok (.discovered report) ∧
      Swept sweep.correlationId limit sweep.before sweep.after openings report) ∧
    ((s.db.covered s'.db).map Payment.id).Nodup ∧
    (s.db.covered s'.db).length = min (sweeps.length * limit) s.db.failedUncased.length ∧
    ∀ sweep ∈ sweeps, sweep.before.failedUncased = [] → sweep.after = sweep.before := by
  refine ⟨h.swept hs, ?_, (h.drained hs).length_covered, fun sweep hsweep hnone => ?_⟩
  · -- The covered payments are rows of one table.
    have hsub : (s.db.covered s'.db).Sublist s.db.payments :=
      List.filter_sublist.trans List.filter_sublist
    exact hs.distinct.paymentId.sublist (hsub.map _)
  · -- Each sweep does what it does alone.
    obtain ⟨openings, report, -, hswept⟩ := h.swept hs sweep hsweep
    exact hswept.eq_of_none hnone

/-- There is a run of any number of sweeps. -/
theorem Idle.exists_sweeps {s : State} (hs : Idle s) (settings : Settings) (limit k : ℕ) :
    ∃ sweeps s', Sweeps limit s sweeps s' ∧ sweeps.length = k := by
  induction k generalizing s with
  | zero => exact ⟨[], s, .nil s, rfl⟩
  | succ k ih =>
    obtain ⟨is, outcome, s₁, hfresh, -, hperformed⟩ :=
      hs.exists_perform? settings 0 (.discover limit "c")
    obtain ⟨sweeps, s', hrun, hlength⟩ := ih (hs.swept hfresh hperformed).1
    exact ⟨_ :: sweeps, s', .cons hfresh hperformed hrun, by rw [List.length_cons, hlength]⟩

namespace Sample

/-- A failed payment, known to the database from a time on. -/
def failedPayment (id : Uuid) (createdAt : Time) : Payment where
  id := id
  customerId := 1
  amount := 500
  currency := "INR"
  status := .failed
  paymentMethodType := .card
  failureReason := none
  attemptNumber := 1
  providerPaymentId := none
  createdAt := createdAt
  updatedAt := createdAt

/-- Two failed payments, the newer one first. -/
def backlog : State := { State.initial with
  db := { Db.empty with payments := [failedPayment 2 7, failedPayment 3 5] } }

/-- A sweep that opens case `c`. -/
def sweep (c : Uuid) : List Input :=
  [.ranking [], .ranking [], .uuid c, .time 0, .go] ++ audit ++ [.go]

/-- A sweep with limit 1 that opens case `c`, from a state. -/
def sweepOnce (c : Uuid) (s : State) : Option (Outcome × State) :=
  machine.perform? 0 (.discover 1 "c") (sweep c) s

/-- After the first sweep of the backlog. -/
def sweptOnce : State := (sweepOnce 9 backlog).elim backlog Prod.snd

/-- Nothing is under way there. -/
theorem backlog_idle : Idle backlog where
  pending := rfl
  distinct := { Db.Distinct.empty with paymentId := by unfold Unique; decide }

end Sample

/-- Two sweeps, the first of which takes the older payment. -/
theorem sweeps_exact_backlog : ∃ sweeps s', sweeps.length = 2 ∧ Sweeps 1 Sample.backlog sweeps s' ∧
    (Sample.backlog.db.covered s'.db).length = 2 ∧
    (Sample.sweptOnce.db.recoveryCases.map RecoveryCase.paymentId) = [3] := by
  have hfirst : Sample.backlog.db.Fresh (uuidsOf (Sample.sweep 9)) :=
    ⟨by decide, by decide, by decide, by decide⟩
  have hsecond : Sample.sweptOnce.db.Fresh (uuidsOf (Sample.sweep 10)) :=
    ⟨by decide, by decide +kernel, by decide +kernel, by decide +kernel⟩
  -- The two sweeps are run one after the other.
  obtain ⟨⟨outcome, s₁⟩, h₁⟩ := Option.isSome_iff_exists.mp
    (show (Sample.sweepOnce 9 Sample.backlog).isSome by decide +kernel)
  obtain ⟨⟨outcome', s₂⟩, h₂⟩ := Option.isSome_iff_exists.mp
    (show (Sample.sweepOnce 10 Sample.sweptOnce).isSome by decide +kernel)
  have hs₁ : Sample.sweptOnce = s₁ := by rw [Sample.sweptOnce, h₁]; rfl
  have hrun : Sweeps 1 Sample.backlog _ s₂ :=
    .cons hfirst h₁ (.cons (hs₁ ▸ hsecond) (hs₁ ▸ h₂) (.nil s₂))
  refine ⟨_, s₂, rfl, hrun, ?_, by decide +kernel⟩
  exact (sweeps_exact Sample.backlog_idle hrun).2.2.1.trans rfl

end RecoverAI
