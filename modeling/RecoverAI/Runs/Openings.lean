import RecoverAI.Runs.Executions
import RecoverAI.Runs.Intake
import RecoverAI.Runs.Waiting

/-!
# Opening a case

Two calls that open the case of a payment both look first and insert later. The unique
column keeps the case single, whatever the interleaving, and the call that reports it as
new is the one that inserted it. But the insert of the other call is refused, and nothing
turns the refusal into the answer that the case exists: no call fails on account of
another one only as long as what it has found stays so until its insert (`StillUncased`).

And a call has an answer only if it comes to an end. Two sweeps that meet two payments in
opposite orders wait for each other, and whoever asks for one of these payments waits behind
them. So the runs are those that keep out of circles (`KeepsApart`), as they do with one
sweep at a time.
-/

namespace RecoverAI

open Interleave

variable {H : History} {t u : Tid} {e : Event} {sts : List Stmt} {paymentId : Uuid}

/-! ### Payments with a case -/

/-- The payment has a case. -/
def Db.Cased (db : Db) (paymentId : Uuid) : Prop :=
  Stmt.taken db.recoveryCases RecoveryCase.paymentId paymentId = true

/-- The statement opens a case for the payment. -/
def Stmt.opens (paymentId : Uuid) : Stmt → Bool
  | .insertCase c => c.paymentId = paymentId
  | _ => false

namespace Db

variable {db : Db} {c : RecoveryCase}

/-- In other words, some case is of the payment. -/
theorem cased_iff : db.Cased paymentId ↔ ∃ c ∈ db.recoveryCases, c.paymentId = paymentId := by
  simp [Cased, Stmt.taken]

/-- Whether a payment has a case, only the opening of one changes. -/
theorem taken_apply {st : Stmt} (h : st.opens paymentId = false) (db : Db) :
    Stmt.taken (Store.apply st db).recoveryCases RecoveryCase.paymentId paymentId =
      Stmt.taken db.recoveryCases RecoveryCase.paymentId paymentId := by
  cases st with
  | insertCase row =>
    -- The new row is of another payment.
    have hrow : decide (row.paymentId = paymentId) = false := h
    change Stmt.taken (db.recoveryCases ++ [row]) _ _ = _
    rw [Stmt.taken_append, Stmt.taken_singleton, hrow, Bool.or_false]
  | updateCase before after => exact Stmt.taken_paymentId_write
  | _ => rfl

/-- A case stays, whatever one statement does. -/
theorem Cased.apply (h : db.Cased paymentId) (st : Stmt) :
    (Store.apply st db).Cased paymentId := by
  cases hst : st.opens paymentId with
  | false => rwa [Cased, taken_apply hst]
  | true =>
    -- A second case would come on top of the first.
    cases st with
    | insertCase row =>
      change Stmt.taken (db.recoveryCases ++ [row]) _ _ = true
      rw [Stmt.taken_append, h, Bool.true_or]
    | _ => cases hst

/-- And so it does with a list of them. -/
theorem Cased.applyAll (h : db.Cased paymentId) (sts : List Stmt) :
    (Store.applyAll sts db).Cased paymentId :=
  Store.applyAll_invariant (I := fun db : Db => db.Cased paymentId) (fun st _ _ hdb => hdb.apply st) h

/-- What is inserted gives its payment a case. -/
theorem cased_of_insertCase (h : .insertCase c ∈ sts) (db : Db) :
    (Store.applyAll sts db).Cased c.paymentId := by
  induction sts generalizing db with
  | nil => cases h
  | cons st sts ih =>
    rcases List.mem_cons.mp h with rfl | h
    · -- It is opened here, and cases are not taken away.
      refine Cased.applyAll ?_ sts
      exact cased_iff.mpr ⟨c, List.mem_append_right _ (List.mem_singleton_self c), rfl⟩
    · exact ih h _

/-- A case that passes its check is the first of its payment. -/
theorem not_cased_of_checkAll (hc : Store.checkAll sts db = none) (h : .insertCase c ∈ sts) :
    ¬ db.Cased c.paymentId := by
  induction sts generalizing db with
  | nil => cases h
  | cons st sts ih =>
    obtain ⟨hst, hsts⟩ := Store.checkAll_cons_eq_none.mp hc
    intro hcased
    rcases List.mem_cons.mp h with rfl | h
    · -- The payment is in a unique column, so the check has found it free.
      have hfree := Stmt.eq_false_of_unlessTaken hst
      rw [Bool.or_eq_false_iff] at hfree
      exact absurd hcased (by rw [Cased, hfree.2]; simp)
    · exact ih hsts h (hcased.apply st)

end Db

/-- What has been opened is there. -/
theorem Lawful.cased {c : RecoveryCase} (h : Lawful H) (hcommit : (t, .committed sts) ∈ H)
    (hc : .insertCase c ∈ sts) : H.replay.Cased c.paymentId := by
  induction h with
  | refl => cases hcommit
  | @cons H u e before permitted checked _ ih =>
    rcases List.mem_cons.mp hcommit with heq | hold
    · -- The event is the commit itself.
      obtain ⟨-, rfl⟩ := Prod.mk.inj heq
      exact Db.cased_of_insertCase hc _
    · cases e with
      | committed sts' => exact (ih hold).applyAll sts'
      | _ => exact ih hold

/-- **The case of a payment is opened once.** -/
theorem Lawful.eq_of_insertCase {c c' : RecoveryCase} {sts' : List Stmt} (h : Lawful H)
    (hcommit : (t, .committed sts) ∈ H) (hc : .insertCase c ∈ sts)
    (hcommit' : (u, .committed sts') ∈ H) (hc' : .insertCase c' ∈ sts')
    (hpayment : c.paymentId = c'.paymentId) : t = u := by
  induction h with
  | refl => cases hcommit
  | @cons H v e before permitted checked _ ih =>
    rcases List.mem_cons.mp hcommit with heq | hold <;>
      rcases List.mem_cons.mp hcommit' with heq' | hold'
    · -- both are the newest event
      exact (Prod.mk.inj heq).1.trans (Prod.mk.inj heq').1.symm
    · -- the later one has passed its check
      obtain ⟨-, rfl⟩ := Prod.mk.inj heq
      refine absurd (Lawful.cased before hold' hc') ?_
      rw [← hpayment]
      exact Db.not_cased_of_checkAll (checked sts rfl) hc
    · obtain ⟨-, rfl⟩ := Prod.mk.inj heq'
      refine absurd (Lawful.cased before hold hc) ?_
      rw [hpayment]
      exact Db.not_cased_of_checkAll (checked sts' rfl) hc'
    · -- both are older
      exact ih hold hold'

/-! ### What a call has found -/

/-- The query an event is the answer to. -/
def Event.query? : Event → Option Query
  | .selected query _ => some query
  | _ => none

/-- The query may find the payment without a case. -/
def Query.findsUncased (paymentId : Uuid) : Query → Bool
  | .caseByPayment paymentId' => paymentId' = paymentId
  | .failedPaymentsWithoutCase _ => true
  | _ => false

/-- Nobody has opened a case for the payment since the operation looked it up. -/
def StillUncased (H : History) (t : Tid) (paymentId : Uuid) : Prop :=
  ∀ p ∈ H, ∀ q ∈ p.2.query?, q.findsUncased paymentId = true →
    History.Undisturbed H t q (Stmt.opens paymentId)

instance (H : History) (t : Tid) (paymentId : Uuid) : Decidable (StillUncased H t paymentId) :=
  inferInstanceAs (Decidable (∀ p ∈ H, ∀ q ∈ p.2.query?, q.findsUncased paymentId = true →
    History.Undisturbed H t q (Stmt.opens paymentId)))

/-- A payment that was found without a case and whose finder was not disturbed has none. -/
theorem Lawful.not_cased (h : Lawful H) (hfound : FoundUncased (H.own t) paymentId)
    (hstill : StillUncased H t paymentId) : ¬ H.replay.Cased paymentId := by
  -- both queries find payments without a case only
  have hread : ∃ (q : Query) (r : q.Result), (t, .selected q r) ∈ H ∧
      q.findsUncased paymentId = true ∧
      ∀ (db : Db) ranking, r = q.eval db ranking → ¬ db.Cased paymentId := by
    rcases hfound with hread | ⟨limit, payments, hread, payment, hpayment, rfl⟩
    · refine ⟨_, _, History.mem_own.mp hread, by simp [Query.findsUncased], fun db ranking hr hc => ?_⟩
      obtain ⟨c, hc, hpayment⟩ := Db.cased_iff.mp hc
      exact absurd hpayment (by simpa using List.find?_eq_none.mp hr.symm c hc)
    · refine ⟨_, _, History.mem_own.mp hread, rfl, fun db ranking hr hc => ?_⟩
      rw [hr] at hpayment
      have hmem := List.mem_of_mem_take hpayment
      rw [orderedBy, List.mem_insertionSort, List.mem_filter] at hmem
      have huncased := hmem.2
      rw [Db.uncased, hc] at huncased
      simp at huncased
  obtain ⟨q, r, hread, hfinds, hnone⟩ := hread
  obtain ⟨older, ranking, -, hr, heq⟩ := h.holds_of_undisturbed
    (fun db => Stmt.taken db.recoveryCases RecoveryCase.paymentId paymentId) hread
    (fun _ hst => Db.taken_apply hst) (hstill _ hread q rfl hfinds)
  have hbefore := hnone older.replay ranking hr
  rwa [Db.Cased, ← heq] at hbefore

/-- What an operation reads, it reads no earlier than it is started. -/
theorem Lawful.read_since {newer older : History} {op : Op} {q : Query} {r : q.Result}
    (h : Lawful (newer ++ (t, .started op) :: older))
    (hread : (t, .selected q r) ∈ newer ++ (t, .started op) :: older) :
    ∃ (db : Db) (ranking : List Uuid), r = q.eval db ranking ∧ older.replay.Evolves db := by
  -- Before its start the operation has left no event.
  have hnone : (t, .selected q r) ∉ older := fun hmem => by
    have hown : History.own older t = [] := h.of_append.cons_inv.2.1
    have hmem := History.mem_own.mpr hmem
    rw [hown] at hmem
    cases hmem
  rcases List.mem_append.mp hread with hread | hread
  · -- The read stands above the start, so the database it has seen has evolved from the one there.
    obtain ⟨newest, newer, rfl⟩ := List.append_of_mem hread
    rw [List.append_assoc, List.cons_append] at h
    have hl := h.of_append
    obtain ⟨ranking, hr⟩ := hl.cons_inv.2.1
    exact ⟨_, ranking, hr, Lawful.evolves_of_split hl.cons_inv.1⟩
  · rcases List.mem_cons.mp hread with heq | hold
    · cases heq
    · exact absurd hold hnone

/-! ### Whole runs -/

/-- The case a statement opens. -/
def Stmt.opened? : Stmt → Option RecoveryCase
  | .insertCase c => some c
  | _ => none

/-- A step that flushes the opening of a case finds the payment as it was looked up. -/
def OpeningHolds (w : World) (a : Action) : Prop :=
  match w.flushes? a with
  | some (t, sts) => ∀ c ∈ sts.filterMap Stmt.opened?, StillUncased w.shared.history t c.paymentId
  | none => True

/-- The condition without the match, as something to decide. -/
theorem openingHolds_iff {w : World} {a : Action} : OpeningHolds w a ↔
    ∀ p ∈ (w.flushes? a).toList, ∀ c ∈ p.2.filterMap Stmt.opened?,
      StillUncased w.shared.history p.1 c.paymentId := by
  unfold OpeningHolds
  cases w.flushes? a with
  | some p => simp
  | none => simp

instance (w : World) (a : Action) : Decidable (OpeningHolds w a) :=
  decidable_of_iff' _ openingHolds_iff

/-- The events of a run in which openings hold. -/
def OpeningsMeet (H : History) (t : Tid) (e : Event) : Prop :=
  ∀ sts error, e = .refused sts error → ∀ c, .insertCase c ∈ sts → StillUncased H t c.paymentId

/-- A run that meets the condition leaves such a record. -/
theorem extends_of_openingHolds {w w' : World} (hw : Reachable w)
    (h : machine.ReachesVia OpeningHolds w w') :
    Extends OpeningsMeet w.shared.history w'.shared.history := by
  refine extends_of_reachesVia hw h fun w₁ a w₂ t e hw₁ hok hstep hh => ?_
  rintro sts error rfl c hc
  rw [OpeningHolds, (flushes?_of_step hstep hh).1] at hok
  exact hok c (List.mem_filterMap.mpr ⟨_, hc, rfl⟩)

/-- The operation is not an ingestion. -/
def NotIngestion (H : History) (t : Tid) : Prop :=
  ∀ request correlationId, (t, .started (.ingest request correlationId)) ∉ H

/-- **What the calls that open cases promise each other.** -/
structure OpensOnce (H : History) (db : Db) : Prop where
  /-- A payment has one case at most. -/
  one : ∀ c ∈ db.recoveryCases, ∀ c' ∈ db.recoveryCases, c.paymentId = c'.paymentId → c = c'
  /-- A call that returns answers with the case of its payment. -/
  created : ∀ t paymentId correlationId response,
    (t, .started (.createCase paymentId correlationId)) ∈ H →
    (t, .ended (some (.ok (.recoveryCaseCreated response)))) ∈ H →
    response.paymentId = paymentId ∧
      ∃ c ∈ db.recoveryCases, c.id = response.recoveryCaseId ∧ c.paymentId = paymentId
  /-- One call at most reports the case as new. -/
  createdOnce : ∀ t t' paymentId correlationId correlationId' response response',
    (t, .started (.createCase paymentId correlationId)) ∈ H →
    (t', .started (.createCase paymentId correlationId')) ∈ H →
    (t, .ended (some (.ok (.recoveryCaseCreated response)))) ∈ H →
    (t', .ended (some (.ok (.recoveryCaseCreated response')))) ∈ H →
    response.created = true → response'.created = true → t = t'
  /-- After a sweep that returns, the payments it has found have cases. -/
  swept : ∀ t limit correlationId report, (t, .started (.discover limit correlationId)) ∈ H →
    (t, .ended (some (.ok (.discovered report)))) ∈ H →
    ∃ limit, ∃ payments : List Payment,
      (t, .selected (.failedPaymentsWithoutCase limit) payments) ∈ H ∧ ∀ payment ∈ payments,
        ∃ c ∈ db.recoveryCases, c.id ∈ report.caseIds ∧ c.paymentId = payment.id
  /-- A call about a failed payment that was there raises if its case is refused only. -/
  created_raises : ∀ (newer older : History) (t : Tid) (p : Payment) correlationId error,
    H = newer ++ (t, .started (.createCase p.id correlationId)) :: older →
    p ∈ older.replay.payments → p.status = .failed → (t, .ended (some (.error error))) ∈ H →
    ∃ c, (t, .refused [.insertCase c] .integrity) ∈ H
  /-- And so does a sweep. -/
  swept_raises : ∀ t limit correlationId error, (t, .started (.discover limit correlationId)) ∈ H →
    (t, .ended (some (.error error))) ∈ H → ∃ c, (t, .refused [.insertCase c] .integrity) ∈ H
  /-- No case that is opened on request or in a sweep is refused because the payment has one. -/
  unimpeded : ∀ (newer older : History) t sts error c, H = newer ++ (t, .refused sts error) :: older →
    .insertCase c ∈ sts → NotIngestion older t → ¬ older.replay.Cased c.paymentId

/-- A case that was seen is there. -/
theorem Db.CaseSeen.mem {db : Db} {c : RecoveryCase} (h : db.CaseSeen c) :
    ∃ r ∈ db.recoveryCases, r.id = c.id ∧ r.paymentId = c.paymentId := by
  obtain ⟨r, hr, hbecomes⟩ := h
  exact ⟨r, Table.mem_of_get? hr, hbecomes.id, hbecomes.paymentId⟩

/-- How an operation has ended, with what it has done until then. -/
theorem Reachable.ended_inv {w : World} (hw : Reachable w) {op : Op} {outcome : Outcome}
    (hst : (t, .started op) ∈ w.shared.history)
    (hended : (t, .ended (some outcome)) ∈ w.shared.history) :
    ∃ (h : List Event) (db : Db), Ended h db outcome ∧ .started op ∈ h ∧
      (∀ e ∈ h, (t, e) ∈ w.shared.history) ∧ db.Evolves w.shared.db := by
  obtain ⟨newer, older, hsplit, -, hp, hown⟩ := Reachable.own_of_ended hw hended
  have hl := Reachable.lawful hw
  have hmem := History.mem_own.mpr hst
  rw [hown] at hmem
  refine ⟨_, _, hp, (List.mem_cons.mp hmem).resolve_left (by simp), fun e he => ?_, ?_⟩
  · -- Its own events are below the one with which it ended.
    rw [hsplit]
    exact List.mem_append_right _ (List.mem_cons_of_mem _ (History.mem_own.mp he))
  · rw [Reachable.db_eq hw, hsplit]
    rw [hsplit] at hl
    exact hl.evolves_of_split

/-- The transactions of a record are in it. -/
theorem mem_of_mem_commits {h : List Event} (hsts : sts ∈ commits h) : .committed sts ∈ h := by
  induction h with
  | nil => cases hsts
  | cons e h ih =>
    cases e with
    | committed sts' =>
      rcases List.mem_cons.mp hsts with rfl | hsts
      · exact List.mem_cons_self
      · exact List.mem_cons_of_mem _ (ih hsts)
    | _ => exact List.mem_cons_of_mem _ (ih hsts)

section Calls

variable {w : World} {correlationId : String}

/-- A call that reports the case as new has opened it. -/
theorem Reachable.opened_of_created {response : RecoveryCaseCreatedResponse} (hw : Reachable w)
    (hst : (t, .started (.createCase paymentId correlationId)) ∈ w.shared.history)
    (hended : (t, .ended (some (.ok (.recoveryCaseCreated response)))) ∈ w.shared.history)
    (hnew : response.created = true) : ∃ sts c, (t, .committed sts) ∈ w.shared.history ∧
      .insertCase c ∈ sts ∧ c.paymentId = paymentId := by
  obtain ⟨own, db, hend, hst, hown, -⟩ := hw.ended_inv hst hended
  obtain ⟨-, -, hcreated⟩ := hend.created paymentId correlationId hst
  obtain ⟨sts, hsts, c, hc, hpayment⟩ := hcreated hnew
  exact ⟨sts, c, hown _ (mem_of_mem_commits hsts), hc, hpayment⟩

/-- The payments a sweep has found have cases. -/
theorem Reachable.swept {limit : Nat} {report : DiscoveryReport} (hw : Reachable w)
    (hst : (t, .started (.discover limit correlationId)) ∈ w.shared.history)
    (hended : (t, .ended (some (.ok (.discovered report)))) ∈ w.shared.history) :
    ∃ limit, ∃ payments : List Payment,
      (t, .selected (.failedPaymentsWithoutCase limit) payments) ∈ w.shared.history ∧
        ∀ payment ∈ payments, ∃ c ∈ w.shared.db.recoveryCases,
          c.id ∈ report.caseIds ∧ c.paymentId = payment.id := by
  obtain ⟨own, db, hend, hst, hown, hevolves⟩ := hw.ended_inv hst hended
  obtain ⟨limit', payments, hread, hcases⟩ := hend.swept limit correlationId hst
  refine ⟨limit', payments, hown _ hread, fun payment hpayment => ?_⟩
  obtain ⟨c, hseen, hid, hcase⟩ := hcases payment hpayment
  obtain ⟨r, hr, hrid, hrpayment⟩ := (hseen.evolves hevolves).mem
  exact ⟨r, hr, hrid ▸ hid, hrpayment.trans hcase⟩

/-- A call about a failed payment that was there finds it. -/
theorem Reachable.refused_of_created {newer older : History} {p : Payment} {error : Raised}
    (hw : Reachable w)
    (hsplit : w.shared.history = newer ++ (t, .started (.createCase p.id correlationId)) :: older)
    (hp : p ∈ older.replay.payments) (hfailed : p.status = .failed)
    (hended : (t, .ended (some (.error error))) ∈ w.shared.history) :
    ∃ c, (t, .refused [.insertCase c] .integrity) ∈ w.shared.history := by
  have hl := Reachable.lawful hw
  have hst : (t, .started (.createCase p.id correlationId)) ∈ w.shared.history := by
    rw [hsplit]
    exact List.mem_append_right _ List.mem_cons_self
  obtain ⟨own, db, hend, hst, hown, -⟩ := hw.ended_inv hst hended
  rw [hsplit] at hl
  -- The payment was there before the start, so whatever the call read is this row.
  have hpayment : ∀ r : Option Payment, .selected (.payment p.id) r ∈ own → r = some p := by
    intro r hread
    have hread := hown _ hread
    rw [hsplit] at hread
    obtain ⟨db', ranking, hr, hevolves⟩ := hl.read_since hread
    rw [hr]
    exact hevolves.payment _ _ (hl.of_append.cons_inv.1.distinct.paymentId.get?_of_mem hp)
  -- In turn: no such payment, a payment that has not failed, or the refusal.
  rcases hend.created p.id correlationId hst with hread | ⟨p', hread, hnot⟩ | ⟨c, hc⟩
  · cases hpayment _ hread
  · obtain rfl := Option.some.inj (hpayment _ hread)
    exact absurd hfailed hnot
  · exact ⟨c, hown _ hc⟩

end Calls

/-- As long as openings hold, none is refused because the payment has a case. -/
theorem Extends.not_cased_of_refused {newer older : History} {error : DbError} {c : RecoveryCase}
    (h : Extends OpeningsMeet [] (newer ++ (t, .refused sts error) :: older))
    (hc : .insertCase c ∈ sts) (hnot : NotIngestion older t) :
    ¬ older.replay.Cased c.paymentId := by
  cases h.of_append with
  | cons before permitted checked cond =>
    have hlawful : Lawful older := before.mono fun _ _ _ _ => trivial
    -- An ingestion opens the case of its own payment.
    rcases permitted.opening c hc with ⟨request, correlationId, hst⟩ | hfound
    · exact absurd (History.mem_own.mp hst) (hnot request correlationId)
    · exact hlawful.not_cased hfound (cond sts error rfl c hc)

/-- In a run in which openings hold the calls keep all they promise. Only the last promise
needs the condition. -/
theorem Reachable.opensOnce {w : World} (h : machine.ReachesVia OpeningHolds World.empty w) :
    OpensOnce w.shared.history w.shared.db := by
  have hw : Reachable w := h.reaches
  have hl := Reachable.lawful hw
  have hdistinct : w.shared.db.Distinct := by
    rw [Reachable.db_eq hw]
    exact hl.distinct
  refine
    { one := fun c hc c' hc' => hdistinct.casePayment.eq_of_mem hc hc'
      created := ?_
      createdOnce := ?_
      swept := fun t limit correlationId report => hw.swept
      created_raises := fun newer older t p correlationId error => hw.refused_of_created
      swept_raises := ?_
      unimpeded := ?_ }
  · -- the answer names a case of the payment
    intro t paymentId correlationId response hst hended
    obtain ⟨own, db, hend, hst, -, hevolves⟩ := hw.ended_inv hst hended
    obtain ⟨hpayment, ⟨c, hseen, hid, hcase⟩, -⟩ := hend.created paymentId correlationId hst
    obtain ⟨r, hr, hrid, hrpayment⟩ := (hseen.evolves hevolves).mem
    exact ⟨hpayment, r, hr, hrid.trans hid, hrpayment.trans hcase⟩
  · -- both calls have committed the case of the payment
    intro t t' paymentId correlationId correlationId' response response' hst hst' hended hended'
      hnew hnew'
    obtain ⟨sts, c, hcommit, hc, hpayment⟩ := hw.opened_of_created hst hended hnew
    obtain ⟨sts', c', hcommit', hc', hpayment'⟩ := hw.opened_of_created hst' hended' hnew'
    exact hl.eq_of_insertCase hcommit hc hcommit' hc' (hpayment.trans hpayment'.symm)
  · -- a sweep raises after a refusal only
    intro t limit correlationId error hst hended
    obtain ⟨own, db, hend, hst, hown, -⟩ := hw.ended_inv hst hended
    obtain ⟨c, hc⟩ := hend.swept limit correlationId hst
    exact ⟨c, hown _ hc⟩
  · -- and the refusal was not because of a case
    intro newer older t sts error c hsplit hc hnot
    have hext : Extends OpeningsMeet [] w.shared.history :=
      extends_of_openingHolds Machine.Reaches.refl h
    rw [hsplit] at hext
    exact hext.not_cased_of_refused hc hnot

/-- **Opening a case is idempotent as long as look-ups hold, and the calls end as long as
nobody waits in a circle.** In a run in which no operation commits a case for a payment
between the look-up of another one and its insert, and in which no step closes a circle of
waiting, the calls keep all they promise and come to an end. -/
theorem opensOnce_of_openingHolds {w : World}
    (h : machine.ReachesVia (fun w a => OpeningHolds w a ∧ KeepsApart w a) World.empty w) :
    OpensOnce w.shared.history w.shared.db ∧ WindsDown w := by
  have hholds : machine.ReachesVia OpeningHolds World.empty w := h.mono fun _ _ => And.left
  have hapart : machine.ReachesVia KeepsApart World.empty w := h.mono fun _ _ => And.right
  exact ⟨Reachable.opensOnce hholds,
    windsDown_of_acyclic hholds.reaches (acyclic_of_keepsApart hapart)⟩

namespace Sample

/-- The opening of case `c`. -/
def openCase (c : Uuid) : List Input := [.uuid c, .time 0, .go] ++ audit ++ [.go]

/-- A call opens the case, and a sweep finds nothing left to open. -/
def openedInTurn : List Action :=
  uncased ++ alone 1 (.createCase 2 "c") ([.ranking [], .ranking []] ++ openCase 3) ++
    alone 2 (.discover 100 "c") [.ranking [], .ranking [], .go] ++
    alone 3 (.createCase 2 "c") [.ranking [], .ranking []]

/-- Two calls look the payment up before either of them opens a case. -/
def openedAtOnce : List Action :=
  uncased ++ [.start (.createCase 2 "c")] ++ part 1 [.ranking [], .ranking []] ++
    alone 2 (.createCase 2 "c") ([.ranking [], .ranking []] ++ openCase 3) ++
    part 1 [.uuid 4, .time 0, .go] ++ [.finish 1]

/-- The event refuses the case of a payment that has one. -/
def refusesCased (H : History) (t : Tid) : Event → Bool
  | .refused [.insertCase c] .integrity =>
    t = 1 && Stmt.taken H.replay.recoveryCases RecoveryCase.paymentId c.paymentId
  | _ => false

end Sample

set_option maxRecDepth 10000 in
/-- The call, the sweep and the second call leave one case and come to an end. -/
theorem opensOnce_of_openingHolds_openedInTurn :
    (World.empty.after Sample.openedInTurn).shared.db.recoveryCases.length = 1 ∧
      ((World.empty.after Sample.openedInTurn).shared.own 3).any Event.isOutcome = true ∧
      OpensOnce (World.empty.after Sample.openedInTurn).shared.history
        (World.empty.after Sample.openedInTurn).shared.db ∧
      WindsDown (World.empty.after Sample.openedInTurn) :=
  ⟨by decide +kernel, by decide +kernel, opensOnce_of_openingHolds
    (keepsApart_of_oneSweep (World.reachesVia_after (by decide +kernel)))⟩

set_option maxRecDepth 10000 in
/-- Two calls at once: the second raises, because the first has opened the case. -/
theorem openedAtOnce_raises : Reachable (World.empty.after Sample.openedAtOnce) ∧
    (World.empty.after Sample.openedAtOnce).shared.db.payments.map
      (fun p => (p.id, p.status)) = [(2, .failed)] ∧
    (World.empty.after Sample.openedAtOnce).shared.db.recoveryCases.map
      (fun c => (c.id, c.paymentId)) = [(3, 2)] ∧
    ((World.empty.after Sample.openedAtOnce).shared.own 1).any
      (Event.raises .integrityError) = true ∧
    ¬ OpensOnce (World.empty.after Sample.openedAtOnce).shared.history
      (World.empty.after Sample.openedAtOnce).shared.db := by
  have hw := World.reachable_after Sample.openedAtOnce
  refine ⟨hw, by decide +kernel, by decide +kernel, by decide +kernel, fun honce => ?_⟩
  have hcount : 0 < History.count Sample.refusesCased
      (World.empty.after Sample.openedAtOnce).shared.history := by decide +kernel
  have hst : (1, .started (.createCase 2 "c")) ∈
      (World.empty.after Sample.openedAtOnce).shared.history :=
    History.started_mem_of_any (by decide +kernel)
  obtain ⟨newer, older, t, e, hsplit, he⟩ := History.exists_of_count_pos hcount
  unfold Sample.refusesCased at he
  split at he
  case h_2 => cases he
  next c =>
    simp only [Bool.and_eq_true, decide_eq_true_eq] at he
    -- The refused operation is the first call, which is no ingestion.
    obtain ⟨rfl, hcased⟩ := he
    refine honce.unimpeded newer older 1 _ _ c hsplit (List.mem_singleton_self _)
      (fun request correlationId hmem => ?_) hcased
    have hmem : (1, .started (.ingest request correlationId)) ∈
        (World.empty.after Sample.openedAtOnce).shared.history := by
      rw [hsplit]
      exact List.mem_append_right _ (List.mem_cons_of_mem _ hmem)
    cases (Reachable.lawful hw).eq_of_started hst hmem

end RecoverAI
