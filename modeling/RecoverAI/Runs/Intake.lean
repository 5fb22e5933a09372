import RecoverAI.Runs.Ledger

/-!
# Ingestion under concurrency

An ingestion looks up the payment and the customer it is about, and then inserts or
counts. Nothing in the schema holds what it has read in place, so each of its three
promises fails when another ingestion commits in between, and holds in every run in
which what was read still holds at the commit (`LookupHolds`, `ReferenceHolds`,
`CountsHold`).
-/

namespace RecoverAI

open Interleave

variable {H H' : History} {t : Tid} {sts : List Stmt}

/-- What a commit of a lawful record does to the customers and the payments. -/
theorem Lawful.intakeEffect (h : Lawful ((t, .committed sts) :: H)) :
    IntakeEffect (H.own t) H.replay sts :=
  let ⟨_, hp, hc⟩ := h.cons_inv
  (Txn.kind hp).intakeEffect (hc sts rfl)

/-- The customer of an ingestion is there when it is counted. -/
theorem Ingestion.customerExists {i : Ingestion} {db : Db}
    (hc : Store.checkAll i.stmts db = none) :
    (Store.applyAll i.stmts db).CustomerExists i.customer.id := by
  unfold stmts paymentStmts at hc ⊢
  rw [Store.checkAll_append, Option.or_eq_none_iff, Store.checkAll_cons_eq_none] at hc
  obtain ⟨hnew, hcustomer, hrest⟩ := hc
  have hexists : (Store.applyAll (if i.newCustomer then [.insertCustomer i.customer] else [])
      db).CustomerExists i.customer.id := by
    change Stmt.ifMatched _ = none at hcustomer
    -- The insert or update of the customer has passed its check, so the row it counts on is there.
    by_contra hno
    rw [Db.CustomerExists, Bool.not_eq_true] at hno
    rw [hno] at hcustomer
    cases hcustomer
  rw [Store.applyAll_append]
  refine hexists.evolves (.applyAll ?_)
  rw [Store.checkAll_cons_eq_none]
  exact ⟨hcustomer, hrest⟩

/-- A committed payment is of a positive amount, and its customer is there. -/
theorem Lawful.of_payment (h : Lawful H) {p : Payment} (hp : p ∈ H.replay.payments) :
    0 < p.amount ∧ H.replay.CustomerExists p.customerId := by
  induction h using Lawful.induction with
  | refl => cases hp
  | @cons H t e before hlawful ih =>
    cases e with
    | committed sts =>
      cases hlawful.intakeEffect with
      -- No payment comes with this commit.
      | same customers payments =>
        rw [History.replay_cons, Event.applyTo_committed, payments] at hp
        exact (ih hp).imp_right fun h => h.evolves hlawful.evolves_cons
      -- One does, and it is the last row of the table.
      | ingested i known mem hchecked customers payments =>
        rw [History.replay_cons, Event.applyTo_committed, payments] at hp
        rcases List.mem_append.mp hp with hp | hp
        · exact (ih hp).imp_right fun h => h.evolves hlawful.evolves_cons
        · rw [List.mem_singleton.mp hp]
          refine ⟨i.request.amount_pos, ?_⟩
          have hcustomers := customers.trans (i.customers_stmts H.replay).symm
          rw [History.replay_cons, Event.applyTo_committed, Db.CustomerExists, hcustomers]
          exact Ingestion.customerExists hchecked
    | _ => exact ih hp

/-! ### What holds since it was read -/

/-- The statements an event commits. -/
def Event.statements : Event → List Stmt
  | .committed sts => sts
  | _ => []

namespace History

/-- The event is the answer of operation `t` to a query. -/
def answers (t : Tid) (q : Query) (p : Tid × Event) : Bool :=
  match p.2 with
  | .selected q' _ => p.1 = t ∧ q' = q
  | _ => false

/-- The part of a record since the first answer of operation `t` to a query. -/
def since (t : Tid) (q : Query) : History → History
  | [] => []
  | p :: H => if H.any (answers t q) then p :: since t q H else []

/-- No statement committed since operation `t` read the query is one that `spoils` what
it has read. -/
def Undisturbed (H : History) (t : Tid) (q : Query) (spoils : Stmt → Bool) : Prop :=
  ∀ p ∈ since t q H, ∀ st ∈ p.2.statements, spoils st = false

instance (H : History) (t : Tid) (q : Query) (spoils : Stmt → Bool) :
    Decidable (Undisturbed H t q spoils) :=
  inferInstanceAs (Decidable (∀ p ∈ since t q H, ∀ st ∈ p.2.statements, spoils st = false))

/-- What is above the answer in the record is in the part since it. -/
theorem mem_since {newer older : History} {t : Tid} {q : Query} {r : q.Result}
    {p : Tid × Event} (hp : p ∈ newer) : p ∈ since t q (newer ++ (t, .selected q r) :: older) := by
  induction newer with
  | nil => cases hp
  | cons p' newer ih =>
    -- The answer lies below, so the part since it goes on at least as far down as here.
    have hany : (newer ++ (t, .selected q r) :: older).any (answers t q) = true :=
      List.any_eq_true.mpr ⟨_, List.mem_append_right _ List.mem_cons_self, by simp [answers]⟩
    rw [List.cons_append, since, if_pos hany]
    rcases List.mem_cons.mp hp with rfl | hp
    · exact List.mem_cons_self
    · exact List.mem_cons_of_mem _ (ih hp)

/-- What no statement of a stretch of the record touches is as it was before. -/
theorem replay_frame {α : Type} (f : Db → α) {newer older : History}
    (h : ∀ p ∈ newer, ∀ st ∈ p.2.statements, ∀ db, f (Store.apply st db) = f db) :
    f (replay (newer ++ older)) = f (replay older) := by
  -- First one list of statements, by induction, and then one event after the other.
  have hall : ∀ sts : List Stmt, (∀ st ∈ sts, ∀ db, f (Store.apply st db) = f db) →
      ∀ db, f (Store.applyAll sts db) = f db := by
    intro sts
    induction sts with
    | nil => exact fun _ _ => rfl
    | cons st sts ih =>
      intro hsts db
      rw [Store.applyAll_cons, ih (fun st' hst' => hsts st' (List.mem_cons_of_mem _ hst'))]
      exact hsts st List.mem_cons_self db
  induction newer with
  | nil => rfl
  | cons p newer ih =>
    obtain ⟨t, e⟩ := p
    have hnewer := ih fun p hp => h p (List.mem_cons_of_mem _ hp)
    rw [List.cons_append, replay_cons, ← hnewer]
    cases e with
    | committed sts => exact hall sts (h _ List.mem_cons_self) _
    | _ => rfl

end History

/-- **What was read still holds** of whatever only a spoiling statement changes. -/
theorem Lawful.holds_of_undisturbed {α : Type} (f : Db → α) {q : Query} {r : q.Result}
    {spoils : Stmt → Bool} (h : Lawful H) (hread : (t, .selected q r) ∈ H)
    (hframe : ∀ st, spoils st = false → ∀ db, f (Store.apply st db) = f db)
    (hquiet : History.Undisturbed H t q spoils) :
    ∃ (older : History) (ranking : List Uuid), Lawful older ∧ r = q.eval older.replay ranking ∧
      f H.replay = f older.replay := by
  obtain ⟨newer, older, rfl, hl, ⟨ranking, hr⟩, -⟩ := h.split hread
  refine ⟨older, ranking, hl, hr, ?_⟩
  -- The answer itself commits nothing, so what counts is the part of the record above it.
  rw [← List.singleton_append, ← List.append_assoc]
  refine History.replay_frame f fun p hp st hst => ?_
  rcases List.mem_append.mp hp with hp | hp
  · -- above the answer: quiet, as assumed
    exact hframe st (hquiet p (History.mem_since hp) st hst)
  · rw [List.mem_singleton.mp hp] at hst
    cases hst

/-! ### One payment for each provider payment id -/

/-- The payment a statement inserts. -/
def Stmt.payment? : Stmt → Option Payment
  | .insertPayment row => some row
  | _ => none

/-- The statement reports a payment under this id at the provider. -/
def Stmt.reports (providerPaymentId : String) (st : Stmt) : Bool :=
  st.payment?.any fun p => p.providerPaymentId = some providerPaymentId

/-- What a transaction reports, nobody else has reported since it was looked up. -/
def LookupHolds (H : History) (_ : Db) (t : Tid) (sts : List Stmt) : Prop :=
  ∀ p ∈ sts.filterMap Stmt.payment?, ∀ key ∈ truthy p.providerPaymentId,
    History.Undisturbed H t (.paymentByProviderPaymentId key) (Stmt.reports key)

instance (H : History) (db : Db) (t : Tid) (sts : List Stmt) : Decidable (LookupHolds H db t sts) :=
  inferInstanceAs (Decidable (∀ p ∈ sts.filterMap Stmt.payment?,
    ∀ key ∈ truthy p.providerPaymentId,
      History.Undisturbed H t (.paymentByProviderPaymentId key) (Stmt.reports key)))

/-- The payments with an id at the provider. -/
def Db.paymentsOf (db : Db) (providerPaymentId : String) : List Payment :=
  db.payments.filter fun p => p.providerPaymentId = some providerPaymentId

/-- A statement that does not report the id leaves its payments as they are. -/
theorem Db.paymentsOf_apply {st : Stmt} {key : String} (h : st.reports key = false) (db : Db) :
    (Store.apply st db).paymentsOf key = db.paymentsOf key := by
  cases st with
  | insertPayment row =>
    -- The row does not have this key, so the filter drops it.
    have hrow : row.providerPaymentId ≠ some key := by simpa [Stmt.reports, Stmt.payment?] using h
    change List.filter _ (db.payments ++ [row]) = _
    rw [List.filter_append, List.filter_singleton, decide_eq_false hrow, cond_false,
      List.append_nil]
    rfl
  | _ => rfl

/-- Whoever looked a payment up in vain and was not disturbed would do so again. -/
theorem Lawful.paymentsOf_eq_nil {key : String} (h : Lawful H)
    (hread : (t, .selected (.paymentByProviderPaymentId key) none) ∈ H)
    (hquiet : History.Undisturbed H t (.paymentByProviderPaymentId key) (Stmt.reports key)) :
    H.replay.paymentsOf key = [] := by
  obtain ⟨older, ranking, -, hr, heq⟩ := h.holds_of_undisturbed (Db.paymentsOf · key) hread
    (fun _ hst => Db.paymentsOf_apply hst) hquiet
  -- The newest of no rows is nothing, so no row was found.
  rw [heq, ← List.perm_nil]
  have hnil : orderedBy Payment.createdAt ranking (older.replay.paymentsOf key) = [] :=
    List.head?_eq_none_iff.mp hr.symm
  rw [← hnil]
  exact (List.perm_insertionSort _ _).symm

/-- Payments are told apart by their ids at the provider. -/
def OnePayment (db : Db) : Prop :=
  ∀ p ∈ db.payments, ∀ q ∈ db.payments, ∀ key, truthy p.providerPaymentId = some key →
    q.providerPaymentId = some key → p = q

/-- A payment with an id that no other has leaves them told apart. -/
theorem onePayment_append {payments : Table Payment} {payment : Payment}
    (h : ∀ p ∈ payments, ∀ q ∈ payments, ∀ key, truthy p.providerPaymentId = some key →
      q.providerPaymentId = some key → p = q)
    (hnew : ∀ p ∈ payments, ∀ key, truthy payment.providerPaymentId = some key →
      p.providerPaymentId ≠ some key) :
    ∀ p ∈ payments ++ [payment], ∀ q ∈ payments ++ [payment], ∀ key,
      truthy p.providerPaymentId = some key → q.providerPaymentId = some key → p = q := by
  intro p hp q hq key hpk hqk
  rcases List.mem_append.mp hp with hp | hp <;> rcases List.mem_append.mp hq with hq | hq
  · -- both were there before
    exact h p hp q hq key hpk hqk
  · -- `p` was there before and `q` is the new one
    rw [List.mem_singleton.mp hq] at hqk
    exact absurd (truthy_eq_some_iff.mp hpk).1
      (hnew p hp key (truthy_eq_some_iff.mpr ⟨hqk, ne_of_truthy hpk⟩))
  · -- the other way round
    rw [List.mem_singleton.mp hp] at hpk
    exact absurd hqk (hnew q hq key hpk)
  · -- both are the new one
    rw [List.mem_singleton.mp hp, List.mem_singleton.mp hq]

/-- In such a run payments are told apart, by induction on the record. -/
theorem Extends.onePayment (h : Extends (CommitsMeet LookupHolds) [] H) :
    OnePayment H.replay := by
  induction h using Extends.induction with
  | refl => exact fun p hp => by cases hp
  | @cons H t e before hlawful cond _ ih =>
    cases e with
    | committed sts =>
      rw [History.replay_cons, Event.applyTo_committed, OnePayment]
      cases hlawful.intakeEffect with
      | same customers payments => rw [payments]; exact ih
      | ingested i known mem _ customers payments =>
        rw [payments]
        refine onePayment_append ih fun p hp key hkey hpk => ?_
        -- the new payment has an id that no other has
        have hreported : i.payment ∈ sts.filterMap Stmt.payment? :=
          List.mem_filterMap.mpr ⟨_, mem _ i.insertPayment_mem, rfl⟩
        have hnil := hlawful.cons_inv.1.paymentsOf_eq_nil
          (History.mem_own.mp (known.unknown key hkey)) (cond sts rfl _ hreported key hkey)
        have hmem : p ∈ H.replay.paymentsOf key := List.mem_filter.mpr ⟨hp, by simpa using hpk⟩
        rw [hnil] at hmem
        cases hmem
    | _ => exact ih

/-- The answer of an ingestion: the payment it reports is in the database. -/
theorem Reachable.ingested {w : World} (hw : Reachable w) {t : Tid}
    {request : PaymentIngestRequest} {correlationId : String} {response : PaymentIngestResponse}
    (hst : (t, .started (.ingest request correlationId)) ∈ w.shared.history)
    (hended : (t, .ended (some (.ok (.paymentIngested response)))) ∈ w.shared.history) :
    ∃ p, p ∈ w.shared.db.payments ∧ p.id = response.paymentId ∧
      p.providerPaymentId = request.providerPaymentId := by
  have hl := Reachable.lawful hw
  obtain ⟨newer, older, hsplit, -, hp, hown⟩ := Reachable.own_of_ended hw hended
  have hmem := History.mem_own.mpr hst
  rw [hown] at hmem
  have hst' := (List.mem_cons.mp hmem).resolve_left (by simp)
  obtain ⟨p, hseen, hid, hkey⟩ := hp.ingested request correlationId response hst' rfl
  -- The payment was there when the answer was given, and payments stay.
  refine ⟨p, ?_, hid, hkey⟩
  rw [Reachable.db_eq hw, hsplit]
  rw [hsplit] at hl
  exact Table.mem_of_get? (hseen.evolves hl.evolves_of_split)

/-- **Ingestion is idempotent as long as look-ups hold.** In a run in which no other
report of an id is committed between the look-up of an ingestion and its commit, there
is one payment for each id, one case for it, and one answer to all who report it. -/
theorem onePayment_of_lookupHolds {w : World}
    (h : machine.ReachesVia (OnCommit LookupHolds) World.empty w) :
    OnePayment w.shared.db ∧
    (∀ c ∈ w.shared.db.recoveryCases, ∀ c' ∈ w.shared.db.recoveryCases,
      ∀ p ∈ w.shared.db.payments, ∀ p' ∈ w.shared.db.payments, p.id = c.paymentId →
      p'.id = c'.paymentId → ∀ key, truthy p.providerPaymentId = some key →
      p'.providerPaymentId = some key → c = c') ∧
    ∀ t t' request request' correlationId correlationId' response response' key,
      (t, .started (.ingest request correlationId)) ∈ w.shared.history →
      (t', .started (.ingest request' correlationId')) ∈ w.shared.history →
      truthy request.providerPaymentId = some key → request'.providerPaymentId = some key →
      (t, .ended (some (.ok (.paymentIngested response)))) ∈ w.shared.history →
      (t', .ended (some (.ok (.paymentIngested response')))) ∈ w.shared.history →
      response.paymentId = response'.paymentId := by
  have hw : Reachable w := h.reaches
  have hl := Reachable.lawful hw
  have hone : OnePayment w.shared.db := by
    rw [Reachable.db_eq hw]
    exact (extends_of_onCommit Machine.Reaches.refl h).onePayment
  refine ⟨hone, ?_, ?_⟩
  · -- Cases are told apart by their payments, which is a unique column.
    intro c hc c' hc' p hp p' hp' hid hid' key hkey hkey'
    obtain rfl := hone p hp p' hp' key hkey hkey'
    have hcase := hl.distinct.casePayment
    rw [← Reachable.db_eq hw] at hcase
    exact hcase.eq_of_mem hc hc' (hid.symm.trans hid')
  · -- Each answer names a payment with the id, and there is only one.
    intro t t' request request' correlationId correlationId' response response' key hst hst' hkey
      hkey' hended hended'
    obtain ⟨p, hp, hid, hpk⟩ := Reachable.ingested hw hst hended
    obtain ⟨p', hp', hid', hpk'⟩ := Reachable.ingested hw hst' hended'
    rw [← hpk] at hkey
    rw [← hpk'] at hkey'
    obtain rfl := hone p hp p' hp' key hkey hkey'
    exact hid.symm.trans hid'

namespace Sample

/-- A failed payment the provider knows as "pay". -/
def reported : PaymentIngestRequest :=
  { request with providerPaymentId := some "pay", providerPaymentId_length := by decide }

/-- It is reported twice, the second time after the first report has been handled. -/
def reportedAgain : List Action :=
  alone 0 (.ingest reported "c") (.ranking [] :: ingest 1 2 3) ++
    alone 1 (.ingest reported "c") ([.ranking [], .ranking []] ++ audit ++ [.go])

/-- It is reported twice, and both reports look it up before either is committed. -/
def reportedTwice : List Action :=
  [.start (.ingest reported "c")] ++ part 0 [.ranking []] ++
    alone 1 (.ingest reported "c") (.ranking [] :: ingest 4 5 6) ++
    part 0 (ingest 1 2 3) ++ [.finish 0]

end Sample

set_option maxRecDepth 10000 in
/-- The second report finds the payment of the first. -/
theorem onePayment_of_lookupHolds_reportedAgain :
    (World.empty.after Sample.reportedAgain).shared.db.payments.length = 1 ∧
      OnePayment (World.empty.after Sample.reportedAgain).shared.db :=
  ⟨by decide +kernel,
    (onePayment_of_lookupHolds (World.reachesVia_after (by decide +kernel))).1⟩

set_option maxRecDepth 10000 in
/-- Two reports at once: two payments with one id, and two cases. -/
theorem reportedTwice_twoPayments :
    Reachable (World.empty.after Sample.reportedTwice) ∧
      ¬ OnePayment (World.empty.after Sample.reportedTwice).shared.db ∧
      (World.empty.after Sample.reportedTwice).shared.db.recoveryCases.length = 2 := by
  refine ⟨World.reachable_after _, fun hone => ?_, by decide +kernel⟩
  -- Both rows are in the table, with one key.
  have htwo : ∃ p ∈ (World.empty.after Sample.reportedTwice).shared.db.payments,
      ∃ q ∈ (World.empty.after Sample.reportedTwice).shared.db.payments, p ≠ q ∧
        truthy p.providerPaymentId = some "pay" ∧ q.providerPaymentId = some "pay" := by
    decide +kernel
  obtain ⟨p, hp, q, hq, hne, hpk, hqk⟩ := htwo
  exact hne (hone p hp q hq "pay" hpk hqk)

/-! ### One customer for each reference -/

/-- The customer a statement inserts. -/
def Stmt.customer? : Stmt → Option Customer
  | .insertCustomer row => some row
  | _ => none

/-- The statement inserts a customer with this reference. -/
def Stmt.introduces (reference : String) (st : Stmt) : Bool :=
  st.customer?.any fun c => c.externalReference = some reference

/-- Whom a transaction inserts, nobody else has inserted since it was looked up. -/
def ReferenceHolds (H : History) (_ : Db) (t : Tid) (sts : List Stmt) : Prop :=
  ∀ c ∈ sts.filterMap Stmt.customer?, ∀ reference ∈ truthy c.externalReference,
    History.Undisturbed H t (.customersByExternalReference reference) (Stmt.introduces reference)

instance (H : History) (db : Db) (t : Tid) (sts : List Stmt) :
    Decidable (ReferenceHolds H db t sts) :=
  inferInstanceAs (Decidable (∀ c ∈ sts.filterMap Stmt.customer?,
    ∀ reference ∈ truthy c.externalReference, History.Undisturbed H t
      (.customersByExternalReference reference) (Stmt.introduces reference)))

/-- How many customers have a reference. -/
def Db.holders (db : Db) (reference : String) : ℕ :=
  db.customers.countP fun c => c.externalReference = some reference

/-- The references stay when a customer is counted. -/
theorem Customer.countP_update {customers : Table Customer} {id : Uuid} {before after : Customer}
    {reference : String} :
    (Table.update customers id (before.write after)).countP
        (fun c => c.externalReference = some reference) =
      customers.countP fun c => c.externalReference = some reference :=
  Table.countP_update fun _ => rfl

/-- A statement that does not introduce the reference leaves its holders as many as they are. -/
theorem Db.holders_apply {st : Stmt} {reference : String} (h : st.introduces reference = false)
    (db : Db) : (Store.apply st db).holders reference = db.holders reference := by
  cases st with
  -- A new row counts if it has the reference, and this one has not.
  | insertCustomer row =>
    have hrow : row.externalReference ≠ some reference := by
      simpa [Stmt.introduces, Stmt.customer?] using h
    change List.countP _ (db.customers ++ [row]) = _
    rw [List.countP_append, List.countP_singleton, if_neg (by simpa using hrow)]
    rfl
  -- An update of the counters leaves the references as they are.
  | updateCustomer before after => exact Customer.countP_update
  | _ => rfl

/-- No reference is held twice. -/
def OneCustomer (db : Db) : Prop := ∀ reference, reference ≠ "" → db.holders reference ≤ 1

/-- The operation is an ingestion. -/
def History.ingests (H : History) (t : Tid) : Bool :=
  H.any fun p => match p.2 with
    | .started (.ingest _ _) => p.1 = t
    | _ => false

/-- The rows an ingestion is about to flush are new: no unique value is taken, as it
would be if an id were drawn twice. -/
def FreshIds (w : World) (a : Action) : Prop :=
  match w.flushes? a with
  | some (t, sts) => History.ingests w.shared.history t = true →
      Store.checkAll sts (w.shared.view t) ≠ some .integrity
  | none => True

instance (w : World) (a : Action) : Decidable (FreshIds w a) := by
  unfold FreshIds
  split <;> infer_instance

/-- The events of a run in which references hold and ids are fresh. -/
def ReferencesMeet (H : History) (t : Tid) (e : Event) : Prop :=
  CommitsMeet ReferenceHolds H t e ∧
    ∀ sts, e = .refused sts .integrity → History.ingests H t = false

/-- A run under the two conditions leaves such a record. -/
theorem extends_of_referenceHolds {w w' : World} (hw : Reachable w)
    (h : machine.ReachesVia (fun w a => OnCommit ReferenceHolds w a ∧ FreshIds w a) w w') :
    Extends ReferencesMeet w.shared.history w'.shared.history := by
  refine extends_of_reachesVia hw h fun w₁ a w₂ t e hw₁ hok hstep hh => ⟨?_, ?_⟩
  · intro sts he
    subst he
    have hcommit := hok.1
    rw [OnCommit, commits?_of_step hstep hh, Reachable.db_eq hw₁] at hcommit
    exact hcommit
  · intro sts he
    subst he
    obtain ⟨hflush, hcheck⟩ := flushes?_of_step hstep hh
    have hfresh := hok.2
    rw [FreshIds, hflush] at hfresh
    exact Bool.eq_false_of_not_eq_true fun hi => hfresh hi hcheck

/-- In such a record no reference is held twice, by induction. -/
theorem Extends.oneCustomer (h : Extends ReferencesMeet [] H) : OneCustomer H.replay := by
  induction h using Extends.induction with
  | refl => exact fun reference _ => Nat.zero_le 1
  | @cons H t e before hlawful cond _ ih =>
    cases e with
    | committed sts =>
      intro reference hne
      rw [History.replay_cons, Event.applyTo_committed]
      cases hlawful.intakeEffect with
      -- No customer comes with this commit.
      | same customers payments => rw [Db.holders, customers]; exact ih reference hne
      | ingested i known mem _ customers payments =>
        rw [Db.holders, customers, Ingestion.customersAfter, Customer.countP_update]
        have hcustomer := known.customer
        cases hnew : i.newCustomer with
        -- The customer was found, and is only counted.
        | false => exact ih reference hne
        | true =>
          rw [hnew] at hcustomer
          rw [if_pos rfl, List.countP_append, List.countP_singleton]
          by_cases hheld : i.customer.externalReference = some reference
          · -- nobody held the reference when it was looked up, and nobody does now
            have hinserted : i.customer ∈ sts.filterMap Stmt.customer? :=
              List.mem_filterMap.mpr ⟨_, mem _ (Ingestion.insertCustomer_mem hnew), rfl⟩
            have htruthy := truthy_eq_some_iff.mpr ⟨hheld, hne⟩
            have hrequest : truthy i.request.customerReference = some reference := by
              rw [← htruthy, hcustomer.1]
            obtain ⟨older, ranking, -, hr, heq⟩ := hlawful.cons_inv.1.holds_of_undisturbed
              (Db.holders · reference) (History.mem_own.mp (hcustomer.2 reference hrequest))
              (fun _ hst => Db.holders_apply hst) (cond.1 sts rfl _ hinserted reference htruthy)
            have hnone : older.replay.holders reference = 0 := by
              rw [Db.holders, List.countP_eq_length_filter]
              exact congrArg List.length hr.symm
            have hnow : H.replay.holders reference = 0 := heq.trans hnone
            rw [Db.holders] at hnow
            rw [hnow]
            split <;> simp
          · -- the new customer has another reference
            rw [if_neg (by simpa using hheld), Nat.add_zero]
            exact ih reference hne
    | _ => exact ih

/-- An operation that was started as an ingestion is one. -/
theorem History.ingests_of_mem {request : PaymentIngestRequest} {correlationId : String}
    (h : (t, .started (.ingest request correlationId)) ∈ H) : H.ingests t = true :=
  List.any_eq_true.mpr ⟨_, h, by simp⟩

/-- **One customer for each reference, as long as look-ups hold.** In a run in which no
other customer with the reference is committed between the look-up of an ingestion and
its commit, and in which the ids an ingestion draws are new, no reference is held twice
and no ingestion raises. -/
theorem oneCustomer_of_referenceHolds {w : World}
    (h : machine.ReachesVia (fun w a => OnCommit ReferenceHolds w a ∧ FreshIds w a)
      World.empty w) :
    OneCustomer w.shared.db ∧ ∀ t request correlationId outcome,
      (t, .started (.ingest request correlationId)) ∈ w.shared.history →
      (t, .ended (some outcome)) ∈ w.shared.history → ∃ response, outcome = .ok response := by
  have hw : Reachable w := h.reaches
  have hext : Extends ReferencesMeet [] w.shared.history :=
    extends_of_referenceHolds Machine.Reaches.refl h
  refine ⟨by rw [Reachable.db_eq hw]; exact hext.oneCustomer, ?_⟩
  intro t request correlationId outcome hst hended
  cases outcome with
  | ok response => exact ⟨response, rfl⟩
  | error e =>
    exfalso
    obtain ⟨newer, older, hsplit, hext, hp, -⟩ := hext.split hended
    have hl := Reachable.lawful hw
    rw [hsplit] at hst hl
    have hst := hl.started_mem (by simp) hst
    have hl := hl.of_append.cons_inv.1
    have hfaulty : Faulty (older.own t) :=
      hp.faulty request correlationId e (History.mem_own.mpr hst) rfl
    obtain ⟨sts, hrefused⟩ | ⟨reference, found, hread, hne, htwo⟩ := hfaulty
    · -- no flush of an ingestion was refused
      obtain ⟨newer, older, rfl, -, -, -, hnot⟩ := hext.split (History.mem_own.mp hrefused)
      have hin := History.ingests_of_mem (hl.started_mem (by simp) hst)
      rw [hnot sts rfl] at hin
      cases hin
    · -- no reference was held twice
      obtain ⟨newer, older, rfl, hext, ⟨ranking, hr⟩, -⟩ := hext.split (History.mem_own.mp hread)
      have hone := hext.oneCustomer reference hne
      rw [Db.holders, List.countP_eq_length_filter] at hone
      rw [hr] at htwo
      exact absurd (htwo.trans hone) (by decide)

namespace Sample

/-- A failed payment of the customer "u". -/
def customerReported : PaymentIngestRequest :=
  { request with customerReference := some "u", customerReference_length := by decide }

/-- Two payments of the customer, one after the other. -/
def customerAgain : List Action :=
  alone 0 (.ingest customerReported "c") (.ranking [] :: ingest 1 2 3) ++
    alone 1 (.ingest customerReported "c") (.ranking [] :: (ingest 1 5 6).drop 2)

/-- Two payments of the customer at once, and one more. -/
def customerTwice : List Action :=
  [.start (.ingest customerReported "c")] ++ part 0 [.ranking []] ++
    alone 1 (.ingest customerReported "c") (.ranking [] :: ingest 4 5 6) ++
    part 0 (ingest 1 2 3) ++ [.finish 0] ++
    alone 2 (.ingest customerReported "c") [.ranking []]

end Sample

set_option maxRecDepth 10000 in
/-- The second payment counts for the customer of the first. -/
theorem oneCustomer_of_referenceHolds_customerAgain :
    (World.empty.after Sample.customerAgain).shared.db.payments.length = 2 ∧
      OneCustomer (World.empty.after Sample.customerAgain).shared.db :=
  ⟨by decide +kernel,
    (oneCustomer_of_referenceHolds (World.reachesVia_after (by decide +kernel))).1⟩

/-- The operation has ended with this exception. -/
def Event.raises (e : Raised) : Event → Bool
  | .ended (some (.error e')) => e' = e
  | _ => false

set_option maxRecDepth 10000 in
/-- Two payments of a new customer at once: two customers with one reference, and every
later payment with that reference is refused. -/
theorem customerTwice_twoCustomers :
    Reachable (World.empty.after Sample.customerTwice) ∧
      ¬ OneCustomer (World.empty.after Sample.customerTwice).shared.db ∧
      ((World.empty.after Sample.customerTwice).shared.own 2).any
        (Event.raises .multipleResultsFound) = true := by
  refine ⟨World.reachable_after _, fun hone => ?_, by decide +kernel⟩
  have htwo : (World.empty.after Sample.customerTwice).shared.db.holders "u" = 2 := by
    decide +kernel
  have hle := hone "u" (by decide)
  rw [htwo] at hle
  exact absurd hle (by decide)

/-! ### Counters -/

/-- The customer a statement updates. -/
def Stmt.counts? : Stmt → Option Customer
  | .updateCustomer before _ => some before
  | _ => none

/-- The statement writes the row of the customer. -/
def Stmt.touches (customerId : Uuid) (st : Stmt) : Bool := .customer customerId ∈ st.keys

/-- The counters a transaction raises, nobody else has raised since they were read. -/
def CountsHold (H : History) (_ : Db) (t : Tid) (sts : List Stmt) : Prop :=
  ∀ c ∈ sts.filterMap Stmt.counts?, ∀ reference ∈ truthy c.externalReference,
    History.Undisturbed H t (.customersByExternalReference reference) (Stmt.touches c.id)

instance (H : History) (db : Db) (t : Tid) (sts : List Stmt) : Decidable (CountsHold H db t sts) :=
  inferInstanceAs (Decidable (∀ c ∈ sts.filterMap Stmt.counts?,
    ∀ reference ∈ truthy c.externalReference, History.Undisturbed H t
      (.customersByExternalReference reference) (Stmt.touches c.id)))

/-- How many payments a customer has, and how many of them failed. -/
def Db.paymentsCount (db : Db) (customerId : Uuid) : ℕ :=
  db.payments.countP fun p => p.customerId = customerId

/-- Those of them that failed. -/
def Db.failedPaymentsCount (db : Db) (customerId : Uuid) : ℕ :=
  db.payments.countP fun p => p.customerId = customerId ∧ p.status = .failed

/-- The counters of the customer are off by this much. -/
def Db.Off (db : Db) (customerId : Uuid) (total failed : Int) : Prop :=
  ∃ c, db.customers.get? customerId = some c ∧
    c.totalPaymentsCount = db.paymentsCount customerId + total ∧
    c.totalFailedPaymentsCount = db.failedPaymentsCount customerId + failed

/-- A statement that does not touch the customer leaves the row. -/
theorem Db.customer_apply {st : Stmt} {customerId : Uuid} (h : st.touches customerId = false)
    (db : Db) : (Store.apply st db).customers.get? customerId = db.customers.get? customerId := by
  have hkey : .customer customerId ∉ st.keys := by simpa [Stmt.touches] using h
  exact LawfulStore.apply_frame st (.customer customerId) db hkey

/-- A customer that was looked up by a reference has it, and was committed. -/
theorem Lawful.of_customer_read {found : List Customer} {reference : String} (h : Lawful H)
    (hread : (t, .selected (.customersByExternalReference reference) found) ∈ H) :
    ∀ c ∈ found, c.externalReference = some reference := by
  obtain ⟨newer, older, rfl, -, ⟨ranking, hr⟩, -⟩ := h.split hread
  intro c hc
  rw [hr] at hc
  simpa using (List.mem_filter.mp hc).2

/-- An ingestion that was not disturbed finds the customer as it read it. -/
theorem Lawful.customer_of_read {customer : Customer} {reference : String} (h : Lawful H)
    (hread : (t, .selected (.customersByExternalReference reference) [customer]) ∈ H)
    (hquiet : History.Undisturbed H t (.customersByExternalReference reference)
      (Stmt.touches customer.id)) :
    H.replay.customers.get? customer.id = some customer := by
  obtain ⟨older, ranking, hl, hr, heq⟩ := h.holds_of_undisturbed
    (fun db => db.customers.get? customer.id) hread (fun _ hst => Db.customer_apply hst) hquiet
  have hr : [customer] = older.replay.customers.filter
      fun c => c.externalReference = some reference := hr
  have hmem : customer ∈ older.replay.customers :=
    List.mem_of_mem_filter (hr ▸ List.mem_singleton_self customer)
  exact heq.trans (hl.distinct.customerId.get?_of_mem hmem)

/-- A new customer has an id that no other has. -/
theorem Ingestion.get?_of_newCustomer {i : Ingestion} {db : Db} (hi : i.newCustomer = true)
    (hc : Store.checkAll i.stmts db = none) : db.customers.get? i.customer.id = none := by
  rw [stmts, paymentStmts, hi, if_pos rfl, List.singleton_append,
    Store.checkAll_cons_eq_none] at hc
  exact Option.not_isSome_iff_eq_none.mp
    (Bool.not_eq_true _ ▸ Stmt.eq_false_of_unlessTaken hc.1)

/-- One more event leaves the counters as far off as they were. -/
theorem Lawful.off_cons {e : Event} {customerId : Uuid} {total failed : Int}
    (h : Lawful ((t, e) :: H)) (hcond : CommitsMeet CountsHold H t e)
    (hoff : H.replay.Off customerId total failed) :
    (History.replay ((t, e) :: H)).Off customerId total failed := by
  obtain ⟨c, hrow, htotal, hfailed⟩ := hoff
  cases e with
  | committed sts =>
    rw [History.replay_cons, Event.applyTo_committed]
    cases h.intakeEffect with
    | same customers payments =>
      refine ⟨c, by rw [customers]; exact hrow, ?_, ?_⟩
      · rw [htotal, Db.paymentsCount, Db.paymentsCount, payments]
      · rw [hfailed, Db.failedPaymentsCount, Db.failedPaymentsCount, payments]
    | ingested i known mem checked customers payments =>
      -- The payment of the ingestion is the only one that comes, and it counts for its customer.
      have hmore : (Store.applyAll sts H.replay).paymentsCount customerId =
          H.replay.paymentsCount customerId + if i.customer.id = customerId then 1 else 0 := by
        rw [Db.paymentsCount, payments, List.countP_append, List.countP_singleton]
        simp only [decide_eq_true_eq]
        rfl
      have hmoreFailed : (Store.applyAll sts H.replay).failedPaymentsCount customerId =
          H.replay.failedPaymentsCount customerId +
            if i.customer.id = customerId ∧ i.request.status = .failed then 1 else 0 := by
        rw [Db.failedPaymentsCount, payments, List.countP_append, List.countP_singleton]
        simp only [decide_eq_true_eq]
        rfl
      rw [Db.Off, hmore, hmoreFailed, customers, Ingestion.customersAfter,
        Table.get?_update (Customer.keepsKey_write _ _)]
      by_cases hid : i.customer.id = customerId
      · -- It is this customer that is counted.
        have hfound : i.newCustomer = false := Bool.eq_false_of_not_eq_true fun hnew => by
          -- the customer was there before
          rw [← hid, Ingestion.get?_of_newCustomer hnew checked] at hrow
          cases hrow
        have hcustomer := known.customer
        rw [hfound] at hcustomer
        obtain ⟨reference, htruthy, hread⟩ := hcustomer
        have hl := h.cons_inv.1
        have href := hl.of_customer_read (History.mem_own.mp hread) i.customer
          (List.mem_singleton_self _)
        have hupdated : i.customer ∈ sts.filterMap Stmt.counts? :=
          List.mem_filterMap.mpr ⟨_, mem _ i.updateCustomer_mem, rfl⟩
        have hnow := hl.customer_of_read (History.mem_own.mp hread) (hcond sts rfl _ hupdated
          reference (truthy_eq_some_iff.mpr ⟨href, ne_of_truthy htruthy⟩))
        rw [hid, hrow, Option.some.injEq] at hnow
        subst hnow
        rw [if_pos hid, if_pos hid, hfound, if_neg Bool.false_ne_true, hrow]
        refine ⟨_, rfl, ?_, ?_⟩
        · -- one payment more
          have hone : (i.customer.write (i.customer.countPayment i.request.status)
              i.customer).totalPaymentsCount = i.customer.totalPaymentsCount + 1 := dirty_self _ _
          rw [hone, htotal]
          push_cast
          omega
        · -- and one failed payment more, if it failed
          have hone : (i.customer.write (i.customer.countPayment i.request.status)
              i.customer).totalFailedPaymentsCount = if i.request.status = .failed then
                i.customer.totalFailedPaymentsCount + 1
              else i.customer.totalFailedPaymentsCount := dirty_self _ _
          rw [hone, hfailed]
          by_cases hstatus : i.request.status = .failed
          · rw [if_pos hstatus, if_pos ⟨hid, hstatus⟩]
            push_cast
            omega
          · rw [if_neg hstatus, if_neg fun he => hstatus he.2]
            rfl
      · -- Another customer is counted, or a new one comes.
        rw [if_neg hid, if_neg hid,
          if_neg fun he : i.customer.id = customerId ∧ i.request.status = .failed => hid he.1]
        refine ⟨c, ?_, htotal, hfailed⟩
        split
        · exact Table.get?_append_of_some hrow _
        · exact hrow
  | _ => exact ⟨c, hrow, htotal, hfailed⟩

/-- So do all events of a run, by induction on the record. -/
theorem Extends.off {customerId : Uuid} {total failed : Int}
    (h : Extends (CommitsMeet CountsHold) H H') (hl : Lawful H)
    (hoff : H.replay.Off customerId total failed) : H'.replay.Off customerId total failed := by
  induction h with
  | refl => exact hoff
  | cons before permitted checked cond ih =>
    exact Lawful.off_cons (.cons (before.lawful hl) permitted checked trivial) cond ih

/-- **The counters of a customer match the rows, as long as they hold.** In a run in
which no other ingestion counts for a customer between the look-up of an ingestion and
its commit, the counters of every customer that was there grow by the payments committed
for it, and by those that were reported as failed. -/
theorem counts_of_countsHold {w w' : World} (hw : Reachable w)
    (h : machine.ReachesVia (OnCommit CountsHold) w w') {c : Customer}
    (hc : c ∈ w.shared.db.customers) :
    ∃ c' ∈ w'.shared.db.customers, c'.id = c.id ∧
      c'.totalPaymentsCount - c.totalPaymentsCount =
        w'.shared.db.paymentsCount c.id - w.shared.db.paymentsCount c.id ∧
      c'.totalFailedPaymentsCount - c.totalFailedPaymentsCount =
        w'.shared.db.failedPaymentsCount c.id - w.shared.db.failedPaymentsCount c.id := by
  have hl := Reachable.lawful hw
  have hw' : Reachable w' := hw.trans h.reaches
  rw [Reachable.db_eq hw] at hc ⊢
  rw [Reachable.db_eq hw']
  have hoff : (History.replay w.shared.history).Off c.id
      (c.totalPaymentsCount - (History.replay w.shared.history).paymentsCount c.id)
      (c.totalFailedPaymentsCount - (History.replay w.shared.history).failedPaymentsCount c.id) :=
    -- What the counters are off by at the start they are off by at the end.
    ⟨c, hl.distinct.customerId.get?_of_mem hc, by omega, by omega⟩
  obtain ⟨c', hrow, htotal, hfailed⟩ := (extends_of_onCommit hw h).off hl hoff
  refine ⟨c', Table.mem_of_get? hrow, Table.key_of_get? hrow, ?_, ?_⟩
  · omega
  · omega

namespace Sample

/-- A first payment of the customer "u". -/
def customerKnown : List Action :=
  alone 0 (.ingest customerReported "c") (.ranking [] :: ingest 1 2 3)

/-- A second one. -/
def counted : List Action :=
  alone 1 (.ingest customerReported "c") (.ranking [] :: (ingest 1 5 6).drop 2)

/-- Two more at once. -/
def miscounted : List Action :=
  [.start (.ingest customerReported "c")] ++ part 1 [.ranking []] ++
    alone 2 (.ingest customerReported "c") (.ranking [] :: (ingest 1 5 6).drop 2) ++
    part 1 ((ingest 1 7 8).drop 2) ++ [.finish 1]

end Sample

set_option maxRecDepth 10000 in
/-- One more payment is counted as one. -/
theorem counts_of_countsHold_counted :
    ∃ c ∈ (World.empty.after Sample.customerKnown).shared.db.customers, ∃ c',
      c' ∈ ((World.empty.after Sample.customerKnown).after Sample.counted).shared.db.customers ∧
        c'.totalPaymentsCount - c.totalPaymentsCount = 1 := by
  have hex : ∃ c ∈ (World.empty.after Sample.customerKnown).shared.db.customers, c.id = 1 := by
    decide +kernel
  obtain ⟨c, hc, hid⟩ := hex
  have hrun : machine.ReachesVia (OnCommit CountsHold) (World.empty.after Sample.customerKnown)
      ((World.empty.after Sample.customerKnown).after Sample.counted) :=
    World.reachesVia_after (by decide +kernel)
  obtain ⟨c', hc', -, htotal, -⟩ := counts_of_countsHold (World.reachable_after _) hrun hc
  refine ⟨c, hc, c', hc', ?_⟩
  rw [htotal, hid]
  decide +kernel

set_option maxRecDepth 10000 in
/-- Two payments of a known customer at once are counted once. -/
theorem miscounted_lostUpdate :
    Reachable (World.empty.after Sample.customerKnown) ∧
      machine.Reaches (World.empty.after Sample.customerKnown)
        ((World.empty.after Sample.customerKnown).after Sample.miscounted) ∧
      ((World.empty.after Sample.customerKnown).after Sample.miscounted).Quiescent ∧
      (World.empty.after Sample.customerKnown).shared.db.customers.map
        Customer.totalPaymentsCount = [1] ∧
      ((World.empty.after Sample.customerKnown).after Sample.miscounted).shared.db.customers.map
        Customer.totalPaymentsCount = [2] ∧
      (World.empty.after Sample.customerKnown).shared.db.paymentsCount 1 = 1 ∧
      ((World.empty.after Sample.customerKnown).after
        Sample.miscounted).shared.db.paymentsCount 1 = 3 := by
  refine ⟨World.reachable_after _, World.reaches_after _ _, fun th hth => ?_, ?_, ?_, ?_, ?_⟩
  · -- Every operation of the two runs is over.
    have hall : ∀ th ∈ ((World.empty.after Sample.customerKnown).after Sample.miscounted).threads,
        th.prog.isNone = true := by decide +kernel
    exact Option.isNone_iff_eq_none.mp (hall th hth)
  all_goals decide +kernel

end RecoverAI
