import RecoverAI.Runs.Sweeps

/-!
# Reports of payments

Payments reported one after another, each report an ingestion that runs alone. A report of
a failed payment that asks for a case gets one when the payment is new. When it is a repeat,
whatever the report says, the answer is what the first one has left: the payment, with its
case if it has one.
-/

namespace RecoverAI

open Interleave Service

variable {t : Tid} {db : Db} {us : List Uuid} {correlationId : String}

/-- What a database is like as long as payments are reported one after another. -/
structure Db.InTurn (db : Db) : Prop where
  distinct : db.Distinct
  oneCustomer : OneCustomer db
  onePayment : OnePayment db
  /-- The foreign key of a case. -/
  ofPayment : ∀ c ∈ db.recoveryCases, (db.payments.get? c.paymentId).isSome

/-! ### The customer -/

/-- Statements that insert no customer change no reference. -/
theorem Db.holders_applyAll {sts : List Stmt} {reference : String}
    (h : ∀ st ∈ sts, st.introduces reference = false) (db : Db) :
    (Store.applyAll sts db).holders reference = db.holders reference :=
  Store.applyAll_unchanged (fun db : Db => db.holders reference) fun st hst =>
    Db.holders_apply (h st hst)

/-- With references held once the look-up is unambiguous. -/
theorem yields_findCustomer {reference : Option String} (hone : OneCustomer db) :
    Yields t (findCustomer reference) db [] us fun found db' sts us' =>
      db' = db ∧ sts = [] ∧ us' = us ∧ (∀ customer ∈ found, customer ∈ db.customers) ∧
        (found = none → ∀ key ∈ truthy reference, db.holders key = 0) := by
  unfold findCustomer
  cases hkey : truthy reference with
  | none =>
    -- An empty reference is looked up nowhere.
    refine yields_pure ⟨rfl, rfl, rfl, fun _ h => ?_, fun _ _ h => ?_⟩
    · cases h
    · cases h
  | some key =>
    refine Yields.bind (yields_select fun ranking => ?_)
    change Yields t
      (scalarOneOrNone (db.customers.filter fun c => c.externalReference = some key)) _ _ _ _
    -- A reference is held once at most, so the rows are none or one.
    have hle : (db.customers.filter fun c => c.externalReference = some key).length ≤ 1 := by
      rw [← List.countP_eq_length_filter]
      exact hone key (ne_of_truthy hkey)
    cases hrows : db.customers.filter fun c => c.externalReference = some key with
    | nil =>
      refine yields_pure ⟨rfl, rfl, rfl, fun _ h => ?_, fun _ key' hkey' => ?_⟩
      · cases h
      · rw [← Option.some.inj hkey', Db.holders, List.countP_eq_length_filter, hrows]
        rfl
    | cons customer rest =>
      rw [hrows, List.length_cons] at hle
      obtain rfl : rest = [] := List.length_eq_zero_iff.mp (by omega)
      refine yields_pure ⟨rfl, rfl, rfl, fun c hc => ?_, fun h => ?_⟩
      · obtain rfl := Option.some.inj hc
        exact List.mem_of_mem_filter (hrows ▸ List.mem_cons_self)
      · cases h

/-- The customer of a payment is there after the statements, and nothing else is new. -/
structure CustomerFound (db : Db) (customer : Customer) (sts : List Stmt) (us : List Uuid) :
    Prop where
  checked : Store.checkAll sts db = none
  fresh : (Store.applyAll sts db).Fresh us
  exist : (Store.applyAll sts db).CustomerExists customer.id
  oneCustomer : OneCustomer (Store.applyAll sts db)
  payments : (Store.applyAll sts db).payments = db.payments
  recoveryCases : (Store.applyAll sts db).recoveryCases = db.recoveryCases

/-- The customer of a report is found or made. -/
theorem yields_findOrCreateCustomer {reference : Option String} (hfresh : db.Fresh us)
    (hin : db.InTurn) : Yields t (findOrCreateCustomer reference) db [] us
      fun customer db' sts us' => db' = db ∧ CustomerFound db customer sts us' := by
  refine Yields.bind ((yields_findCustomer hin.oneCustomer).mono ?_)
  rintro found db' sts us' ⟨rfl, rfl, rfl, hfound, hnone⟩
  cases found with
  | some customer =>
    -- The customer is known, and nothing is flushed.
    refine yields_pure ⟨rfl, rfl, hfresh, ?_, hin.oneCustomer, rfl, rfl⟩
    exact Table.get?_isSome_of_mem (hfound customer rfl)
  | none =>
    -- A new one is inserted, under a fresh UUID.
    refine Yields.bind (yields_uuid4 fun id us' hus => ?_)
    subst hus
    have hid := hfresh.customer id List.mem_cons_self
    have hchecked : Store.checkAll [.insertCustomer
        { id, externalReference := reference, totalPaymentsCount := 0,
          totalFailedPaymentsCount := 0 }] db' = none := by
      rw [Store.checkAll_cons_eq_none]
      refine ⟨?_, rfl⟩
      change Stmt.unlessTaken (db'.customers.get? id).isSome = none
      rw [hid]
      rfl
    refine Yields.bind (yields_flush hchecked (yields_pure ⟨rfl, hchecked, ?_, ?_, ?_, rfl, rfl⟩))
    · -- The other UUIDs stay fresh, for they differ from the one that was drawn.
      have hnodup := List.nodup_cons.mp hfresh.nodup
      refine ⟨hnodup.2, fun u hu => ?_, fun u hu => hfresh.payment u (List.mem_cons_of_mem _ hu),
        fun u hu => hfresh.recoveryCase u (List.mem_cons_of_mem _ hu)⟩
      have hne : ¬ id = u := fun heq => hnodup.1 (heq ▸ hu)
      change (db'.customers ++ [_]).get? u = none
      rw [Table.get?_append, hfresh.customer u (List.mem_cons_of_mem _ hu), Table.get?_singleton]
      exact if_neg hne
    · exact Table.get?_isSome_of_mem (List.mem_append_right _ (List.mem_singleton_self _))
    · -- And the reference, if there is one, was held by nobody.
      intro key hne
      change List.countP _ (db'.customers ++ [_]) ≤ 1
      rw [List.countP_append, List.countP_singleton]
      by_cases hheld : reference = some key
      · have hzero := hnone rfl key (truthy_eq_some_iff.mpr ⟨hheld, hne⟩)
        rw [Db.holders] at hzero
        rw [hzero]
        split <;> simp
      · rw [if_neg (by simpa using hheld), Nat.add_zero]
        exact hin.oneCustomer key hne

/-- With the customer reports are still in turn. -/
theorem CustomerFound.inTurn {customer : Customer} {sts : List Stmt}
    (h : CustomerFound db customer sts us) (hin : db.InTurn) : (Store.applyAll sts db).InTurn where
  distinct := hin.distinct.applyAll h.checked
  oneCustomer := h.oneCustomer
  onePayment := by
    rw [OnePayment, h.payments]
    exact hin.onePayment
  ofPayment := by
    rw [h.payments, h.recoveryCases]
    exact hin.ofPayment

/-! ### A new payment -/

/-- The statements that follow on a payment leave the customers' references and the payments
alone. -/
theorem Opening.introduces_stmts {o : Opening} {st : Stmt} {reference : String}
    (h : st ∈ o.stmts correlationId) : st.introduces reference = false :=
  forall_mem_openingStmts (C := fun st => st.introduces reference = false) (fun _ => rfl)
    (fun _ _ _ _ => rfl) _ _ _ _ st h

/-- A case is opened for a failed payment if the report asks for it. -/
theorem yields_createCaseIfFailed {request : PaymentIngestRequest} {payment : Payment}
    {sts : List Stmt} (hfresh : (Store.applyAll sts db).Fresh us)
    (huncased : ¬ (Store.applyAll sts db).Cased payment.id) :
    Yields t (createCaseIfFailed request payment correlationId) db sts us
      fun recoveryCase db' sts' _ => db' = db ∧ ∃ openings : List Opening,
        sts' = sts ++ Opening.allStmts openings correlationId ∧
        Store.checkAll (Opening.allStmts openings correlationId) (Store.applyAll sts db) = none ∧
        (∀ o ∈ openings, o.payment = payment) ∧
        (request.autoCreateCase = true → request.status = .failed →
          ∃ o ∈ openings, recoveryCase = some o.recoveryCase) := by
  unfold createCaseIfFailed
  by_cases hasked : request.autoCreateCase ∧ request.status = .failed
  · rw [if_pos hasked]
    -- One case is opened, as the payment has none.
    refine Yields.map (yields_createCase hfresh huncased fun o us' hpayment hchecked _ => ?_)
    have hall : Opening.allStmts [o] correlationId = o.stmts correlationId := by
      rw [Opening.allStmts_cons, Opening.allStmts_nil, List.append_nil]
    refine ⟨rfl, [o], by rw [hall], by rw [hall]; exact hchecked, fun o' ho' => ?_, fun _ _ => ?_⟩
    · rw [List.mem_singleton.mp ho', hpayment]
    · exact ⟨o, List.mem_cons_self, rfl⟩
  · rw [if_neg hasked]
    refine yields_pure ⟨rfl, [], ?_, rfl, fun o ho => absurd ho List.not_mem_nil,
      fun hauto hfailed => absurd ⟨hauto, hfailed⟩ hasked⟩
    rw [Opening.allStmts_nil, List.append_nil]

/-- The payment of an answer has a case, and the answer names it. -/
def PaymentIngestResponse.NamesCase (response : PaymentIngestResponse) (db : Db) : Prop :=
  ∃ c ∈ db.recoveryCases, c.paymentId = response.paymentId ∧ response.recoveryCaseId = some c.id

/-- The rows of a payment: the counters of its customer, and the payment. -/
def rowStmts (customer : Customer) (payment : Payment) : List Stmt :=
  [.updateCustomer customer (customer.countPayment payment.status), .insertPayment payment]

/-- The statements of a payment, after those for its customer. -/
def reportStmts (customer : Customer) (payment : Payment) (correlationId : String) (auditedAt : Time) :
    List Stmt :=
  rowStmts customer payment ++ [auditStmt (.payment payment.id)
    (.paymentIngested payment.status payment.amount payment.currency payment.failureReason)
    .system correlationId auditedAt]

/-- The rows of a new payment pass their checks. -/
theorem checkAll_rowStmts {customer : Customer} {payment : Payment}
    (hcustomer : db.CustomerExists customer.id) (hpayment : db.payments.get? payment.id = none) :
    Store.checkAll (rowStmts customer payment) db = none := by
  rw [rowStmts, Store.checkAll_cons_eq_none, Store.checkAll_cons_eq_none]
  refine ⟨?_, ?_, rfl⟩
  · -- the counters of a customer that is there
    change Stmt.ifMatched (db.customers.get? customer.id).isSome = none
    rw [hcustomer]
    rfl
  · -- the payment, under a free id
    change Stmt.unlessTaken (db.payments.get? payment.id).isSome = none
    rw [hpayment]
    rfl

/-- A fresh UUID stays fresh when a payment is recorded under another one. -/
theorem Db.Fresh.report {customer : Customer} {payment : Payment} {auditedAt : Time}
    (h : db.Fresh (payment.id :: us)) :
    (Store.applyAll (reportStmts customer payment correlationId auditedAt) db).Fresh us := by
  have hnodup := List.nodup_cons.mp h.nodup
  refine ⟨hnodup.2, fun u hu => ?_, fun u hu => ?_,
    fun u hu => h.recoveryCase u (List.mem_cons_of_mem _ hu)⟩
  · -- An update brings no customer.
    change (db.customers.update customer.id _).get? u = none
    rw [Table.get?_update (Customer.keepsKey_write _ _), h.customer u (List.mem_cons_of_mem _ hu),
      Option.map_none, ite_self]
  · -- The new payment has another id.
    have hne : ¬ payment.id = u := fun heq => hnodup.1 (heq ▸ hu)
    change (db.payments ++ [payment]).get? u = none
    rw [Table.get?_append, h.payment u (List.mem_cons_of_mem _ hu), Table.get?_singleton]
    exact if_neg hne

/-- What a new payment and the case opened for it leave in turn. -/
theorem Db.InTurn.applyAll_report {customer : Customer} {payment : Payment} {auditedAt : Time}
    {openings : List Opening} (hin : db.InTurn)
    (hchecked : Store.checkAll (reportStmts customer payment correlationId auditedAt ++
      Opening.allStmts openings correlationId) db = none)
    (hnew : ∀ key ∈ truthy payment.providerPaymentId, db.paymentsOf key = [])
    (hopenings : ∀ o ∈ openings, o.payment = payment) :
    (Store.applyAll (reportStmts customer payment correlationId auditedAt ++
      Opening.allStmts openings correlationId) db).InTurn := by
  have hpayments : (Store.applyAll (reportStmts customer payment correlationId auditedAt ++
      Opening.allStmts openings correlationId) db).payments = db.payments ++ [payment] := by
    rw [Store.applyAll_append, applyAll_allStmts]
    rfl
  have hcases : (Store.applyAll (reportStmts customer payment correlationId auditedAt ++
      Opening.allStmts openings correlationId) db).recoveryCases =
        db.recoveryCases ++ openings.map Opening.recoveryCase := by
    rw [Store.applyAll_append, applyAll_allStmts]
    rfl
  refine ⟨hin.distinct.applyAll hchecked, fun key hne => ?_, ?_, ?_⟩
  · -- The references are those from before.
    rw [Db.holders_applyAll]
    · exact hin.oneCustomer key hne
    · intro st hst
      rcases List.mem_append.mp hst with hst | hst
      · simp only [reportStmts, rowStmts, List.mem_append, List.mem_cons, List.not_mem_nil,
          or_false] at hst
        rcases hst with (rfl | rfl) | rfl <;> rfl
      · obtain ⟨l, hl, hst⟩ := List.mem_flatten.mp hst
        obtain ⟨o, -, rfl⟩ := List.mem_map.mp hl
        exact Opening.introduces_stmts hst
  · -- The new payment has an id that no payment had.
    rw [OnePayment, hpayments]
    refine onePayment_append hin.onePayment fun p hp key hkey hpk => ?_
    have hmem : p ∈ db.paymentsOf key := List.mem_filter.mpr ⟨hp, by simpa using hpk⟩
    rw [hnew key hkey] at hmem
    cases hmem
  · -- An old case has its payment still, and a new one has the new payment.
    rw [hcases, hpayments]
    intro c hc
    rcases List.mem_append.mp hc with hc | hc
    · rw [Table.get?_append]
      obtain ⟨p, hp⟩ := Option.isSome_iff_exists.mp (hin.ofPayment c hc)
      rw [hp]
      rfl
    · obtain ⟨o, ho, rfl⟩ := List.mem_map.mp hc
      have hid : o.recoveryCase.paymentId = payment.id := congrArg Payment.id (hopenings o ho)
      rw [hid]
      exact Table.get?_isSome_of_mem (List.mem_append_right _ (List.mem_singleton_self payment))

/-- A payment that is not known is recorded, and its case opened if the report asks for it. -/
theorem yields_ingestNewPayment {request : PaymentIngestRequest} (hfresh : db.Fresh us)
    (hin : db.InTurn) (hnew : ∀ key ∈ truthy request.providerPaymentId, db.paymentsOf key = []) :
    Yields t (ingestNewPayment request correlationId) db [] us fun response db' sts' _ =>
      sts' = [] ∧ db'.InTurn ∧
        (request.autoCreateCase = true → request.status = .failed → response.NamesCase db') := by
  refine Yields.bind ((yields_findOrCreateCustomer hfresh hin).mono ?_)
  rintro customer db sts us₁ ⟨rfl, hfound⟩
  refine Yields.bind (yields_uuid4 fun id us₂ hus => ?_)
  refine Yields.bind (yields_now fun createdAt => Yields.bind (yields_now fun updatedAt => ?_))
  subst hus
  have hin₁ := hfound.inTurn hin
  set payment : Payment :=
    { id, customerId := customer.id, amount := request.amount
      currency := request.currency.toUpper, status := request.status
      paymentMethodType := request.paymentMethodType, failureReason := request.failureReason
      attemptNumber := request.attemptNumber, providerPaymentId := request.providerPaymentId
      createdAt, updatedAt } with hpayment
  have hid : (Store.applyAll sts db).payments.get? payment.id = none :=
    hfound.fresh.payment id List.mem_cons_self
  -- The two rows pass their checks, since the customer is there and the id of the payment is
  -- fresh.
  have hrows := checkAll_rowStmts hfound.exist hid
  refine Yields.bind (yields_flush hrows (Yields.bind (yields_recordEvent rfl fun auditedAt => ?_)))
  change Yields t _ db (sts ++ rowStmts customer payment ++ [auditStmt (.payment payment.id)
    (.paymentIngested payment.status payment.amount payment.currency payment.failureReason)
    .system correlationId auditedAt]) _ _
  rw [List.append_assoc, ← reportStmts]
  have hfresh₂ : (Store.applyAll (sts ++ reportStmts customer payment correlationId auditedAt)
      db).Fresh us₂ := by
    rw [Store.applyAll_append]
    exact hfound.fresh.report
  -- No case is of the new payment, since every case has its payment in the table.
  have huncased : ¬ (Store.applyAll (sts ++ reportStmts customer payment correlationId auditedAt)
      db).Cased payment.id := by
    rw [Store.applyAll_append]
    intro hcased
    obtain ⟨c, hc, hcp⟩ := Db.cased_iff.mp hcased
    have hexist := hin₁.ofPayment c hc
    rw [hcp, hid] at hexist
    cases hexist
  refine Yields.bind ((yields_createCaseIfFailed hfresh₂ huncased).mono ?_)
  rintro recoveryCase db sts' us₃ ⟨rfl, openings, rfl, hopened, hof, hasked⟩
  have hchecked : Store.checkAll (reportStmts customer payment correlationId auditedAt ++
      Opening.allStmts openings correlationId) (Store.applyAll sts db) = none := by
    rw [Store.checkAll_append, ← Store.applyAll_append, hopened, Option.or_none, reportStmts,
      Store.checkAll_append, hrows]
    rfl
  -- All this is one transaction, on top of what was flushed for the customer.
  have happly : Store.applyAll (sts ++ reportStmts customer payment correlationId auditedAt ++
      Opening.allStmts openings correlationId) db =
      Store.applyAll (reportStmts customer payment correlationId auditedAt ++
        Opening.allStmts openings correlationId) (Store.applyAll sts db) := by
    rw [List.append_assoc, Store.applyAll_append]
  refine Yields.bind (yields_commit (yields_pure ⟨rfl, ?_, fun hauto hfailed => ?_⟩))
  · rw [happly]
    refine hin₁.applyAll_report hchecked (fun key hkey => ?_) hof
    rw [Db.paymentsOf, hfound.payments]
    exact hnew key hkey
  · -- The case that was asked for is the one the answer names.
    obtain ⟨o, ho, rfl⟩ := hasked hauto hfailed
    refine ⟨o.recoveryCase, ?_, congrArg Payment.id (hof o ho), rfl⟩
    rw [Store.applyAll_append, applyAll_allStmts]
    exact List.mem_append_right _ (List.mem_map_of_mem ho)

/-! ### Any payment -/

/-- No payment is known under the id of the report, or the one that is has a case. -/
def Db.CanName (db : Db) (request : PaymentIngestRequest) : Prop :=
  ∀ key ∈ truthy request.providerPaymentId, ∀ p ∈ db.paymentsOf key, db.Cased p.id

/-- An audit event changes nothing that reports depend on. -/
theorem Db.InTurn.audit (h : db.InTurn) (event : AuditEvent) :
    (Store.applyAll [.insertAuditEvent event] db).InTurn :=
  ⟨{ h.distinct with }, h.oneCustomer, h.onePayment, h.ofPayment⟩

/-- What a report that runs alone does: its answer names a case if it asks for one and there
can be one, and otherwise it does not. -/
theorem yields_ingestPayment {request : PaymentIngestRequest} (hfresh : db.Fresh us)
    (hin : db.InTurn) : Yields t (ingestPayment request correlationId) db [] us
      fun response db' sts' _ => sts' = [] ∧ db'.InTurn ∧
        (request.autoCreateCase = true → request.status = .failed →
          (response.NamesCase db' ↔ db.CanName request)) := by
  unfold ingestPayment
  cases hkey : truthy request.providerPaymentId with
  | none =>
    -- Without an id no payment is known.
    have hnone : ∀ key ∈ truthy request.providerPaymentId, db.paymentsOf key = [] := by
      rw [hkey]
      exact fun key h => by cases h
    refine (yields_ingestNewPayment hfresh hin hnone).mono ?_
    rintro response db' sts' us' ⟨rfl, hin', hnames⟩
    refine ⟨rfl, hin', fun hauto hfailed => iff_of_true (hnames hauto hfailed) ?_⟩
    rw [Db.CanName, hkey]
    exact fun key h => by cases h
  | some key =>
    refine Yields.bind (yields_select fun ranking => ?_)
    have heval : Query.eval (Store.applyAll [] db) ranking (.paymentByProviderPaymentId key) =
        (orderedBy Payment.createdAt ranking (db.paymentsOf key)).head? := rfl
    rw [heval]
    cases hhead : (orderedBy Payment.createdAt ranking (db.paymentsOf key)).head? with
    | none =>
      -- The look-up found nothing, so there is nothing to find.
      have hnil : db.paymentsOf key = [] := by
        have hperm := orderedBy_perm Payment.createdAt ranking (db.paymentsOf key)
        rw [List.head?_eq_none_iff.mp hhead] at hperm
        exact hperm.nil_eq.symm
      have hnone : ∀ key' ∈ truthy request.providerPaymentId, db.paymentsOf key' = [] := by
        rw [hkey]
        exact fun key' h => Option.some.inj h ▸ hnil
      refine (yields_ingestNewPayment hfresh hin hnone).mono ?_
      rintro response db' sts' us' ⟨rfl, hin', hnames⟩
      refine ⟨rfl, hin', fun hauto hfailed => iff_of_true (hnames hauto hfailed) ?_⟩
      intro key' hkey' p hp
      rw [hnone key' hkey'] at hp
      cases hp
    | some payment =>
      have hpayment : payment ∈ db.paymentsOf key := mem_orderedBy.mp (List.mem_of_head? hhead)
      -- The payment is known. Its case is looked up, the report is noted, and nothing is opened.
      refine Yields.bind (yields_select fun _ => ?_)
      refine Yields.bind (yields_recordEvent rfl fun auditedAt => ?_)
      refine Yields.bind (yields_commit (yields_pure ⟨rfl, hin.audit _, fun _ _ => ?_⟩))
      -- the known payment is the only one with the id
      have hcan : db.CanName request ↔ db.Cased payment.id := by
        unfold Db.CanName
        rw [hkey]
        refine ⟨fun h => h key rfl payment hpayment, fun hcased key' hkey' p hp => ?_⟩
        obtain rfl := Option.some.inj hkey'
        obtain ⟨hmem, hid⟩ := List.mem_filter.mp hpayment
        obtain ⟨hpmem, hpid⟩ := List.mem_filter.mp hp
        rw [decide_eq_true_eq] at hid hpid
        rwa [← hin.onePayment payment hmem p hpmem key
          (truthy_eq_some_iff.mpr ⟨hid, ne_of_truthy hkey⟩) hpid]
      rw [hcan, Db.cased_iff]
      constructor
      · -- a case that is named is a case
        rintro ⟨c, hc, hcp, -⟩
        exact ⟨c, hc, hcp⟩
      · -- The case that was found is the only one of the payment.
        rintro ⟨c, hc, hcp⟩
        refine ⟨c, hc, hcp, ?_⟩
        have hfind := hin.distinct.casePayment.find?_of_mem hc
        rw [hcp] at hfind
        exact congrArg (Option.map RecoveryCase.id) hfind

/-! ### Reports in a row -/

/-- A report: the database before and after it, the request, and how it ended. -/
structure Report where
  before : Db
  after : Db
  request : PaymentIngestRequest
  outcome : Outcome

/-- Reports one after another, with nothing else going on. Each draws UUIDs that are not in
use. -/
inductive Reports : State → List Report → State → Prop
  | nil (s : State) : Reports s [] s
  | cons {s s₁ s' : State} {t : Tid} {request : PaymentIngestRequest} {correlationId : String}
      {is : List Input} {outcome : Outcome} {reports : List Report}
      (fresh : s.db.Fresh (uuidsOf is))
      (performed : machine.perform? t (.ingest request correlationId) is s = some (outcome, s₁))
      (rest : Reports s₁ reports s') :
      Reports s (⟨s.db, s₁.db, request, outcome⟩ :: reports) s'

/-- The report is of a failed payment and asks for a case. -/
def Report.AsksForCase (report : Report) : Prop :=
  report.request.status = .failed ∧ report.request.autoCreateCase = true

/-- The report is answered, and the answer names the case of the payment it returns. -/
def Report.NamesCase (report : Report) : Prop :=
  ∃ response, report.outcome = .ok (.paymentIngested response) ∧ response.NamesCase report.after

/-- What a report that is performed alone does. -/
theorem Idle.reported {s s' : State} {request : PaymentIngestRequest} {is : List Input}
    {outcome : Outcome} (hs : Idle s) (hin : s.db.InTurn) (hfresh : s.db.Fresh (uuidsOf is))
    (h : machine.perform? t (.ingest request correlationId) is s = some (outcome, s')) :
    Idle s' ∧ s'.db.InTurn ∧ ∃ response, outcome = .ok (.paymentIngested response) ∧
      (request.autoCreateCase = true → request.status = .failed →
        (response.NamesCase s'.db ↔ s.db.CanName request)) := by
  have hyields : Yields t (Op.service (.ingest request correlationId)) s.db [] (uuidsOf is)
      fun r db' sts' _ => sts' = [] ∧ db'.Distinct ∧ db'.InTurn ∧ ∃ response,
        r = .paymentIngested response ∧ (request.autoCreateCase = true → request.status = .failed →
          (response.NamesCase db' ↔ s.db.CanName request)) := by
    refine Yields.map (Yields.mono (yields_ingestPayment hfresh hin) ?_)
    rintro response db' sts' us' ⟨rfl, hin', hnames⟩
    exact ⟨rfl, hin'.distinct, hin', response, rfl, hnames⟩
  obtain ⟨hs', r, rfl, hin', response, rfl, hnames⟩ := hs.of_yields hyields h
  exact ⟨hs', hin', response, rfl, hnames⟩

/-- **When a reported failure opens its case.** In any row of reports, each is answered, and
the answer to one that asks for a case names the case exactly when the payment is not known
yet or has a case. -/
theorem reports_nameCase_iff {s s' : State} {reports : List Report} (hs : Idle s)
    (hin : s.db.InTurn) (h : Reports s reports s') :
    ∀ report ∈ reports, (∃ response, report.outcome = .ok (.paymentIngested response)) ∧
      (report.AsksForCase → (report.NamesCase ↔ report.before.CanName report.request)) := by
  induction h with
  | nil s => exact fun report hreport => absurd hreport List.not_mem_nil
  | cons fresh performed rest ih =>
    obtain ⟨hs₁, hin₁, response, rfl, hnames⟩ := hs.reported hin fresh performed
    refine List.forall_mem_cons.mpr ⟨⟨⟨response, rfl⟩, fun hasks => ?_⟩, ih hs₁ hin₁⟩
    rw [← hnames hasks.2 hasks.1]
    constructor
    · rintro ⟨response', heq, hnames'⟩
      obtain rfl : response = response' := by
        injection heq with heq
        injection heq
      exact hnames'
    · exact fun hnames' => ⟨response, rfl, hnames'⟩

namespace Sample

/-- The payment is authorized first. -/
def authorized : PaymentIngestRequest := { reported with status := .authorized }

/-- What the report of a new payment with a case draws, of one without, and of a repeat. -/
def withCase : List Input := .ranking [] :: ingest 1 2 3

def withoutCase : List Input := [.ranking [], .uuid 1, .go, .uuid 2, .time 0, .time 0, .go] ++ audit ++ [.go]

def repeated : List Input := [.ranking [], .ranking []] ++ audit ++ [.go]

def report (request : PaymentIngestRequest) (is : List Input) (s : State) :
    Option (Outcome × State) := machine.perform? 0 (.ingest request "c") is s

/-- After a first report. -/
def reportedOnce (request : PaymentIngestRequest) (is : List Input) : State :=
  (report request is State.initial).elim State.initial Prod.snd

theorem initial_idle : Idle State.initial := ⟨rfl, Db.Distinct.empty⟩

theorem initial_inTurn : State.initial.db.InTurn where
  distinct := Db.Distinct.empty
  oneCustomer := fun _ _ => Nat.zero_le 1
  onePayment := fun p hp => by cases hp
  ofPayment := fun c hc => by cases hc

/-- A first report, and then a repeat that draws no UUID. -/
theorem reports_of_isSome (first second : PaymentIngestRequest) (is : List Input)
    (hfresh : State.initial.db.Fresh (uuidsOf is)) (h₁ : (report first is State.initial).isSome)
    (h₂ : (report second repeated (reportedOnce first is)).isSome) :
    ∃ outcome outcome' s', report second repeated (reportedOnce first is) = some (outcome', s') ∧
      Reports State.initial [⟨State.initial.db, (reportedOnce first is).db, first, outcome⟩,
        ⟨(reportedOnce first is).db, s'.db, second, outcome'⟩] s' := by
  obtain ⟨⟨outcome, s₁⟩, h₁⟩ := Option.isSome_iff_exists.mp h₁
  obtain ⟨⟨outcome', s'⟩, h₂⟩ := Option.isSome_iff_exists.mp h₂
  have hs₁ : reportedOnce first is = s₁ := by rw [reportedOnce, h₁]; rfl
  refine ⟨outcome, outcome', s', h₂, ?_⟩
  rw [hs₁] at h₂ ⊢
  have hnone : s₁.db.Fresh (uuidsOf repeated) := Db.Fresh.nil s₁.db
  exact .cons hfresh h₁ (.cons hnone h₂ (.nil s'))

end Sample

/-- A failed payment is reported twice, and the second answer names the case as well. -/
theorem reports_nameCase_iff_repeated : ∃ reports s', Reports State.initial reports s' ∧
    ∃ report ∈ reports, report.before.payments.length = 1 ∧ report.NamesCase := by
  obtain ⟨outcome, outcome', s', -, hrun⟩ := Sample.reports_of_isSome Sample.reported
    Sample.reported Sample.withCase ⟨by decide, by decide, by decide, by decide⟩
    (by decide +kernel) (by decide +kernel)
  have hlength : (Sample.reportedOnce Sample.reported Sample.withCase).db.payments.length = 1 := by
    decide +kernel
  have hcan : (Sample.reportedOnce Sample.reported Sample.withCase).db.CanName Sample.reported := by
    unfold Db.CanName Db.Cased
    decide +kernel
  refine ⟨_, s', hrun, _, List.mem_cons_of_mem _ List.mem_cons_self, hlength, ?_⟩
  exact ((reports_nameCase_iff Sample.initial_idle Sample.initial_inTurn hrun _
    (List.mem_cons_of_mem _ List.mem_cons_self)).2 ⟨rfl, rfl⟩).mpr hcan

/-- A payment that was authorized fails: its failure is a repeat, so the answer names no case
and there is none. -/
theorem failedLater_unnamed : ∃ reports s', Reports State.initial reports s' ∧
    s'.db.payments.map (fun p => (p.id, p.status)) = [(2, .authorized)] ∧
    s'.db.recoveryCases = [] ∧ ∃ report ∈ reports, report.AsksForCase ∧ ¬ report.NamesCase := by
  obtain ⟨outcome, outcome', s', h, hrun⟩ := Sample.reports_of_isSome Sample.authorized
    Sample.reported Sample.withoutCase ⟨by decide, by decide, by decide, by decide⟩
    (by decide +kernel) (by decide +kernel)
  have hs' : s' = (Sample.report Sample.reported Sample.repeated
      (Sample.reportedOnce Sample.authorized Sample.withoutCase)).elim State.initial Prod.snd := by
    rw [h]
    rfl
  have hnone : s'.db.recoveryCases = [] := by
    rw [hs']
    decide +kernel
  refine ⟨_, s', hrun, by rw [hs']; decide +kernel, hnone, _,
    List.mem_cons_of_mem _ List.mem_cons_self, ⟨rfl, rfl⟩, ?_⟩
  rintro ⟨response, -, c, hc, -⟩
  rw [hnone] at hc
  cases hc

end RecoverAI
