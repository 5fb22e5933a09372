import RecoverAI.Refinement.Common

/-!
# The ingestion service keeps the protocol

Payments and cases are only inserted here, and nothing is in hand at any point, so
every error simply ends the operation.
-/

namespace RecoverAI

open Interleave

variable {t : Tid} {p : List Stmt} {h h₀ : List Event} {F : List Fact} {s : State}
  {correlationId : String}

/-- The continuation of an operation that raises because a value is taken, or because
a reference is not unique. -/
abbrev OnFault (t : Tid) (h₀ : List Event) (F : List Fact) (K : Raised → Prog sig Outcome) : Prop :=
  ∀ e h' p s', Resumes h₀ h' → (∀ e', e = .recoverAI e' → p = []) → Faulty h' →
    Here t p h' F s' → Follows t (K e) s'

/-- The continuation of an operation that raises because a value is taken. -/
abbrev OnTaken (t : Tid) (h₀ : List Event) (F : List Fact) (K : Raised → Prog sig Outcome) : Prop :=
  ∀ h' s', Resumes h₀ h' → (∃ sts, .refused sts .integrity ∈ h') → Here t [] h' F s' →
    Follows t (K .integrityError) s'

/-- The continuation of an operation that raises because the case it opens is refused. -/
abbrev OnUnopened (t : Tid) (h₀ : List Event) (F : List Fact) (K : Raised → Prog sig Outcome) :
    Prop :=
  ∀ h' s', Resumes h₀ h' → (∃ c, .refused [.insertCase c] .integrity ∈ h') → Here t [] h' F s' →
    Follows t (K .integrityError) s'

/-- A case that is refused is a value that is taken. -/
theorem OnTaken.unopened {K : Raised → Prog sig Outcome} (hK : OnTaken t h₀ F K) :
    OnUnopened t h₀ F K := fun h' s' hr ⟨_, hc⟩ hs => hK h' s' hr ⟨_, hc⟩ hs

/-- A refused flush ends the operation. -/
theorem OnTaken.refused {K : Raised → Prog sig Outcome} {sts : List Stmt}
    (hK : OnTaken t h₀ F K) (hr : Resumes h₀ h)
    (hs : Here t [] (.refused sts .integrity :: h) F s) : Follows t (K .integrityError) s :=
  hK _ s (hr.refused sts .integrity) ⟨sts, List.mem_cons_self⟩ hs

/-- More may be known when it raises. -/
theorem OnUnopened.mono {G : List Fact} {K : Raised → Prog sig Outcome} (hK : OnUnopened t h₀ F K)
    (hFG : ∀ f ∈ F, f ∈ G) : OnUnopened t h₀ G K := fun h' s' hr hrefused hs =>
  hK h' s' hr hrefused (hs.forget hFG)

/-- A value that is taken is one of the two reasons. -/
theorem OnFault.onTaken {K : Raised → Prog sig Outcome} (herr : OnFault t h₀ F K) :
    OnTaken t h₀ F K := fun h' s' hr htaken hs =>
  herr _ h' [] s' hr (fun _ _ => rfl) (.inl htaken) hs

/-- More may be known when it raises. -/
theorem OnFault.mono {G : List Fact} {K : Raised → Prog sig Outcome} (hK : OnFault t h₀ F K)
    (hFG : ∀ f ∈ F, f ∈ G) : OnFault t h₀ G K := fun e h' p s' hr hclean hf hs =>
  hK e h' p s' hr hclean hf (hs.forget hFG)

/-- A flush of an operation with nothing in hand that cannot go stale. -/
theorem follows_flush_of_resumes {sts : List Stmt} {K : Except Raised Unit → Prog sig Outcome}
    (hr : Resumes h₀ h) (hs : Here t p h F s)
    (hopen : ∀ c, .insertCase c ∈ sts → MayOpen h c.paymentId)
    (hstale : ∀ db, Facts F db → Store.checkAll p db = none →
      Store.checkAll sts (Store.applyAll p db) ≠ some .stale)
    (hk : ∀ s', Here t (p ++ sts) h F s' → Follows t (K (.ok ())) s')
    (herr : ∀ s', Here t [] (.refused sts .integrity :: h) F s' →
      Follows t (K (.error .integrityError)) s') :
    Follows t ((Service.flush sts).run >>= K) s := by
  -- A refusal owes an account only of a case in hand.
  have hnone : ∀ c, (phase h).case? ≠ some c := fun c hc => by rw [hr.idle] at hc; cases hc
  refine follows_flush hs hk (fun _ _ _ _ _ => ⟨fun c hc => absurd hc (hnone c),
    fun c hc => absurd hc (hnone c), hopen⟩) fun e s hp hc hs => ?_
  cases e with
  | stale => exact absurd hc (hstale s.db hs.facts hp)
  | integrity => exact herr s hs

/-- Inserts do not go stale. -/
theorem checkAll_insert_ne_stale {st : Stmt} {db : Db}
    (hst : ∃ b, Store.check st db = Stmt.unlessTaken b) :
    Store.checkAll [st] db ≠ some .stale := by
  obtain ⟨b, hb⟩ := hst
  rw [Store.checkAll, Store.checkAll, Option.or_none, hb]
  -- An insert has one check, on its unique columns.
  intro he
  cases Stmt.eq_integrity_of_unlessTaken he

/-! ### Cases -/

/-- `_create_case`. -/
theorem follows_createCase {scope : Option Uuid} {payment : Payment}
    {K : Except Raised RecoveryCase → Prog sig Outcome}
    (hr : Proceeds scope h₀ h) (hs : Here t p h F s) (hopen : MayOpen h payment.id)
    (hk : ∀ id createdAt now h' s', Proceeds scope h₀ h' → (∀ e ∈ h, e ∈ h') →
      Here t (p ++ openingStmts id payment createdAt correlationId now) h' F s' →
      Follows t (K (.ok (openedCase id payment createdAt))) s')
    (herr : OnUnopened t h₀ F fun e => K (.error e)) :
    Follows t ((createCase payment correlationId).run >>= K) s := by
  unfold createCase
  rw [run_bind_bind]
  refine follows_uuid4 hs fun id s hs => ?_
  simp only []
  rw [run_bind_bind]
  refine follows_now hs fun createdAt s hs => ?_
  have hr := hr.clock createdAt
  simp only []
  rw [run_bind_bind]
  -- The case is inserted; its payment may have one by now.
  refine follows_flush_of_resumes hr.toResumes hs (fun c hc => ?_)
    (fun _ _ _ => checkAll_insert_ne_stale ⟨_, rfl⟩) (fun s hs => ?_)
    fun s hs => herr _ s (hr.toResumes.refused _ _) ⟨_, List.mem_cons_self⟩ hs
  · obtain rfl := Stmt.insertCase.inj (List.mem_singleton.mp hc)
    exact hopen.mono fun e he => List.mem_cons_of_mem _ he
  simp only []
  rw [run_bind_bind]
  -- Then its event, with which the opening is complete.
  refine follows_recordEvent hs fun now s hs => ?_
  exact hk id createdAt now _ s (hr.clock now) (fun e he => by simp [he])
    (hs.restate _ (List.append_assoc ..))

/-- The statements of several openings. -/
def Opening.allStmts (openings : List Opening) (correlationId : String) : List Stmt :=
  (openings.map fun o => o.stmts correlationId).flatten

/-- An opening claims no case. -/
theorem claimOf_openings (openings : List Opening) (correlationId : String) :
    claimOf (Opening.allStmts openings correlationId) = none := by
  refine claimOf_eq_none_of_forall ?_
  exact forall_mem_openings (fun _ => rfl) (fun _ _ _ _ => rfl) openings

/-- A sweep updates no case. -/
theorem caseUpdated?_openings (openings : List Opening) (correlationId : String) :
    (Opening.allStmts openings correlationId).filterMap Stmt.caseUpdated? = [] := by
  refine List.filterMap_eq_nil_iff.mpr ?_
  exact forall_mem_openings (fun _ => rfl) (fun _ _ _ _ => rfl) openings

/-- The commit of a sweep. -/
theorem Proceeds.opened {scope : Option Uuid} (hr : Proceeds scope h₀ h) (openings : List Opening)
    (correlationId : String) :
    Proceeds scope h₀ (.committed (Opening.allStmts openings correlationId) :: h) :=
  hr.committed (claimOf_openings openings correlationId)
    (Internal.openings openings correlationId).filterMap_linkInsert?
    (by rw [caseUpdated?_openings]; simp)

/-- The loop of a sweep, by induction on the candidates. -/
theorem follows_createCases {scope : Option Uuid} {payments : List Payment}
    {K : Except Raised (List Uuid) → Prog sig Outcome}
    (hr : Proceeds scope h₀ h) (hs : Here t p h F s)
    (hopen : ∀ payment ∈ payments, MayOpen h payment.id)
    (hk : ∀ (openings : List Opening) h' s', Proceeds scope h₀ h' → (∀ e ∈ h, e ∈ h') →
      openings.map (fun o => o.2.1) = payments →
      Here t (p ++ Opening.allStmts openings correlationId) h' F s' →
      Follows t (K (.ok (openings.map Prod.fst))) s')
    (herr : OnUnopened t h₀ F fun e => K (.error e)) :
    Follows t ((createCases correlationId payments).run >>= K) s := by
  induction payments generalizing h p s K with
  | nil =>
    -- There are no more candidates.
    refine hk [] h s hr (fun _ he => he) rfl (hs.restate _ ?_)
    exact (List.append_nil p).symm
  | cons payment payments ih =>
    unfold createCases
    rw [run_bind_bind]
    -- One opening, then the loop on the rest with what was flushed so far.
    refine follows_createCase hr hs (hopen payment List.mem_cons_self)
      (fun id createdAt now h' s' hr hsub hs => ?_) herr
    simp only []
    rw [run_bind_bind]
    -- The later openings are allowed by the same select, which is still in the record.
    refine ih hr hs (fun payment' hp => (hopen payment' (List.mem_cons_of_mem _ hp)).mono hsub)
      (fun openings h'' s'' hr hsub' hmap hs => ?_) herr
    exact hk ((id, payment, createdAt, now) :: openings) h'' s'' hr (fun e he => hsub' e (hsub e he))
      (congrArg (payment :: ·) hmap) (hs.restate _ (List.append_assoc ..))

/-- The candidates of a sweep are failed payments. -/
theorem Db.of_mem_failedPaymentsWithoutCase {db : Db} {ranking : List Uuid} {limit : Nat}
    {payment : Payment}
    (hmem : payment ∈ Query.eval db ranking (.failedPaymentsWithoutCase limit)) :
    payment ∈ db.payments ∧ payment.status = .failed := by
  have hmem := List.mem_of_mem_take hmem
  -- The select filters and orders the table, and takes some of it.
  rw [orderedBy, List.mem_insertionSort, List.mem_filter] at hmem
  refine ⟨hmem.1, ?_⟩
  have huncased := hmem.2
  simp only [Db.uncased, Bool.decide_and, Bool.and_eq_true, decide_eq_true_eq] at huncased
  exact huncased.1

/-- The cases that were opened are there. -/
theorem Here.seen_openings {openings : List Opening} {db : Db} (hs : Here t p h F s)
    (hdb : s.db = Store.applyAll (Opening.allStmts openings correlationId) db) :
    Facts (openings.map fun o => .caseSeen (openedCase o.1 o.2.1 o.2.2.1)) s.db := by
  intro f hf
  obtain ⟨o, ho, rfl⟩ := List.mem_map.mp hf
  refine Db.CaseSeen.of_get? (hs.consistent.distinct.caseId.get?_of_mem ?_)
  rw [hdb, Opening.allStmts, recoveryCases_of_openings]
  exact List.mem_append_right _ (List.mem_map.mpr ⟨o, ho, rfl⟩)

/-- **A sweep keeps the protocol.** -/
theorem follows_discoverFailedPayments {limit : Nat} {scope : Option Uuid}
    {K : Except Raised DiscoveryReport → Prog sig Outcome} [Between h]
    (hidle : phase h = .idle) (hs : Here t [] h F s)
    (hk : ∀ report h' G s', Proceeds scope h h' → report.created ≤ limit →
      (∀ db, Facts G db → SweepEnded h' db (.ok (.discovered report))) →
      Here t [] h' (G ++ F) s' → Follows t (K (.ok report)) s')
    (herr : OnUnopened t h F fun e => K (.error e)) :
    Follows t ((discoverFailedPayments limit correlationId).run >>= K) s := by
  unfold discoverFailedPayments
  rw [run_bind_bind]
  refine follows_select hs (fun _ _ => rfl) fun ids s hs => ?_
  have hr : Proceeds scope h h := .refl hidle
  have hr := hr.selected (.failedPaymentsWithoutCase limit)
    (Query.eval s.db ids (.failedPaymentsWithoutCase limit)) rfl rfl
  have hmem : ∀ payment ∈ Query.eval s.db ids (.failedPaymentsWithoutCase limit),
      payment ∈ s.db.payments ∧ payment.status = .failed := fun _ =>
    Db.of_mem_failedPaymentsWithoutCase
  have hlimit : (Query.eval s.db ids (.failedPaymentsWithoutCase limit)).length ≤ limit :=
    List.length_take_le ..
  generalize Query.eval s.db ids (.failedPaymentsWithoutCase limit) = candidates at *
  -- payments do not change, so the candidates are kept as facts
  have hseen : Facts (candidates.map .paymentSeen) s.db := by
    intro f hf
    obtain ⟨payment, hpayment, rfl⟩ := List.mem_map.mp hf
    exact .of_get? (hs.consistent.distinct.paymentId.get?_of_mem (hmem payment hpayment).1)
  have hs := hs.learnAll hseen
  have hFG : ∀ f ∈ F, f ∈ candidates.map .paymentSeen ++ F := fun f hf =>
    List.mem_append_right _ hf
  have herr := herr.mono hFG
  simp only []
  rw [run_bind_bind]
  refine follows_select hs (fun _ _ => rfl) fun ids s hs => ?_
  have hr := hr.selected .countFailedWithCase (Query.eval s.db ids .countFailedWithCase) rfl rfl
  simp only []
  rw [run_bind_bind]
  -- The candidates were found without a case.
  refine follows_createCases hr hs (fun payment hp => .inr (.inr ⟨limit, candidates, by simp,
    payment, hp, rfl⟩)) (fun openings h' s hr hsub hmap hs => ?_) herr
  have hopen : ∀ o ∈ openings, o.2.1 ∈ candidates := fun o ho => by
    rw [← hmap]
    exact List.mem_map.mpr ⟨o, ho, rfl⟩
  simp only []
  rw [run_bind_bind]
  -- One commit for all openings.
  refine follows_commit hs (fun db hF _ => ?_) fun db s _ _ hdb hs => ?_
  · refine .opened openings correlationId hr.toResumes.between hr.idle fun o ho =>
      ⟨?_, (hmem _ (hopen o ho)).2⟩
    exact hF (.paymentSeen o.2.1) (List.mem_append_left _ (List.mem_map.mpr ⟨_, hopen o ho, rfl⟩))
  · have hcreated : (openings.map Prod.fst).length ≤ limit := by
      rw [List.length_map, ← List.length_map (f := fun o : Opening => o.2.1), hmap]
      exact hlimit
    refine hk _ _ _ s (hr.opened openings correlationId) hcreated (fun db hG => ?_)
      ((hs.forget hFG).learnAll (hs.seen_openings hdb))
    -- Each candidate has the case that was opened for it.
    refine ⟨limit, candidates, List.mem_cons_of_mem _ (hsub _ (by simp)), fun payment hp => ?_⟩
    rw [← hmap] at hp
    obtain ⟨o, ho, rfl⟩ := List.mem_map.mp hp
    exact ⟨_, hG (.caseSeen _) (List.mem_map.mpr ⟨o, ho, rfl⟩), List.mem_map.mpr ⟨o, ho, rfl⟩, rfl⟩

/-- **Opening one case keeps the protocol.** -/
theorem follows_createRecoveryCaseForPayment {paymentId : Uuid} {scope : Option Uuid}
    {K : Except Raised RecoveryCaseCreatedResponse → Prog sig Outcome} [Between h]
    (hidle : phase h = .idle) (hs : Here t [] h F s)
    (hk : ∀ response h' G s', Proceeds scope h h' →
      (∀ db, Facts G db → CreationEnded h' db paymentId (.ok (.recoveryCaseCreated response))) →
      Here t [] h' G s' → Follows t (K (.ok response)) s')
    (herr : ∀ e h' s', Resumes h h' → (∀ db, CreationEnded h' db paymentId (.error e)) →
      Here t [] h' F s' → Follows t (K (.error e)) s') :
    Follows t ((createRecoveryCaseForPayment paymentId correlationId).run >>= K) s := by
  unfold createRecoveryCaseForPayment
  rw [run_bind_bind]
  refine follows_select hs (fun _ _ => rfl) fun ids s hs => ?_
  have hr : Proceeds scope h h := .refl hidle
  have hr := hr.selected (.payment paymentId) (Query.eval s.db ids (.payment paymentId)) rfl rfl
  cases hq : Query.eval s.db ids (.payment paymentId) with
  | none =>
    -- There is no such payment.
    rw [hq] at hs hr
    exact follows_raise (herr _ _ s hr.toResumes (fun _ => .inl List.mem_cons_self) hs)
  | some payment =>
    rw [hq] at hs hr
    have hid : payment.id = paymentId := Table.key_of_get? hq
    have hs := hs.learn (f := .paymentSeen payment) (.of_get? hq)
    have hFG : ∀ f ∈ F, f ∈ Fact.paymentSeen payment :: F := fun f hf =>
      List.mem_cons_of_mem _ hf
    simp only []
    by_cases hfailed : payment.status = .failed
    case neg =>
      -- It has not failed.
      rw [if_pos hfailed, run_bind_bind]
      exact follows_raise (herr _ _ s hr.toResumes
        (fun _ => .inr (.inl ⟨payment, List.mem_cons_self, hfailed⟩)) (hs.forget hFG))
    rw [if_neg (not_not_intro hfailed), run_bind_bind]
    refine follows_select hs (fun _ _ => rfl) fun ids s hs => ?_
    have hr := hr.selected (.caseByPayment paymentId) (Query.eval s.db ids (.caseByPayment paymentId))
      rfl rfl
    cases hq : Query.eval s.db ids (.caseByPayment paymentId) with
    | some existing =>
      -- It has a case, which is the answer.
      rw [hq] at hs hr
      have hmem : existing ∈ s.db.recoveryCases := List.mem_of_find?_eq_some hq
      have hpayment : existing.paymentId = paymentId := by simpa using List.find?_some hq
      have hseen : s.db.CaseSeen existing :=
        .of_get? (hs.consistent.distinct.caseId.get?_of_mem hmem)
      exact hk _ _ _ s hr (fun db hG => ⟨rfl, ⟨existing, hG (.caseSeen existing) List.mem_cons_self,
        rfl, hpayment⟩, by simp⟩) (hs.learn (f := .caseSeen existing) hseen)
    | none =>
      -- It has none: one is opened, unless another operation is first.
      rw [hq] at hs hr
      simp only []
      rw [run_bind_bind]
      refine follows_createCase hr hs (.inr (.inl (by simp [hid])))
        (fun id createdAt now h' s hr _ hs => ?_) fun h' s hr' hrefused hs => ?_
      case refine_2 =>
        obtain ⟨c, hc⟩ := hrefused
        exact herr _ h' s hr' (fun _ => .inr (.inr ⟨c, hc⟩)) (hs.forget hFG)
      simp only []
      rw [run_bind_bind]
      -- one opening
      have hs := hs.restate (Opening.allStmts [(id, payment, createdAt, now)] correlationId) (by
        simp [Opening.allStmts, Opening.stmts])
      refine follows_commit hs (fun db hF _ => ?_) fun db s _ _ hdb hs => ?_
      · refine .opened _ correlationId hr.toResumes.between hr.idle fun o ho => ?_
        rw [List.mem_singleton.mp ho]
        exact ⟨hF (.paymentSeen payment) List.mem_cons_self, hfailed⟩
      · refine hk _ _ _ s (hr.opened _ correlationId) (fun db hG => ⟨rfl, ?_, fun _ => ?_⟩)
          (hs.learnAll (hs.seen_openings hdb))
        · exact ⟨openedCase id payment createdAt, hG (.caseSeen _) List.mem_cons_self, rfl, hid⟩
        · exact ⟨_, List.mem_cons_self, openedCase id payment createdAt, by
            simp [Opening.allStmts, Opening.stmts, openingStmts], hid⟩

/-! ### Payments -/

/-- The look-up of a customer, by reference if there is one. -/
theorem follows_findCustomer {externalReference : Option String}
    {K : Except Raised (Option Customer) → Prog sig Outcome}
    (hr : Resumes h₀ h) (hs : Here t [] h F s)
    (hnone : ∀ h' s', Resumes h₀ h' →
      (∀ reference, truthy externalReference = some reference →
        .selected (.customersByExternalReference reference) ([] : List Customer) ∈ h') →
      Here t [] h' F s' → Follows t (K (.ok none)) s')
    (hsome : ∀ customer h' s', Resumes h₀ h' →
      (∃ reference, truthy externalReference = some reference ∧
        .selected (.customersByExternalReference reference) [customer] ∈ h') →
      Here t [] h' (.customerExists customer.id :: F) s' → Follows t (K (.ok (some customer))) s')
    (herr : OnFault t h₀ F fun e => K (.error e)) :
    Follows t ((findCustomer externalReference).run >>= K) s := by
  unfold findCustomer
  split
  · next reference htruthy =>
    -- A reference is given: nobody carries it, or one customer does, or several do.
    rw [run_bind_bind]
    refine follows_select hs (fun _ _ => rfl) fun ids s hs => ?_
    have hr := hr.selected (.customersByExternalReference reference)
      (Query.eval s.db ids (.customersByExternalReference reference)) rfl
    have hmem : ∀ c ∈ Query.eval s.db ids (.customersByExternalReference reference),
        c ∈ s.db.customers := fun c hc => List.mem_of_mem_filter hc
    generalize Query.eval s.db ids (.customersByExternalReference reference) = found at *
    match found with
    | [] =>
      refine hnone _ s hr (fun r hr' => ?_) hs
      rw [htruthy, Option.some.injEq] at hr'
      exact hr' ▸ List.mem_cons_self
    | [customer] =>
      exact hsome customer _ s hr ⟨reference, htruthy, List.mem_cons_self⟩
        (hs.learn (f := .customerExists customer.id)
          (Table.get?_isSome_of_mem (hmem customer List.mem_cons_self)))
    | c₁ :: c₂ :: cs =>
      -- The select raises, since it asks for one row at most.
      exact herr .multipleResultsFound _ [] s hr (fun _ _ => rfl)
        (.inr ⟨reference, _, List.mem_cons_self, ne_of_truthy htruthy, Nat.le_add_left 2 cs.length⟩)
        hs
  · next htruthy =>
    -- No reference is given, and nobody is looked for.
    refine hnone h s hr (fun reference hr' => ?_) hs
    rw [htruthy] at hr'
    cases hr'

/-- What has become of the customer of an ingestion: it exists, or is to be inserted. -/
def CustomerFacts (newCustomer : Bool) (customer : Customer) : List Fact :=
  if newCustomer then [] else [.customerExists customer.id]

/-- `_find_or_create_customer`. -/
theorem follows_findOrCreateCustomer {externalReference : Option String}
    {K : Except Raised Customer → Prog sig Outcome}
    (hr : Resumes h₀ h) (hs : Here t [] h F s)
    (hk : ∀ (newCustomer : Bool) customer h' s', Resumes h₀ h' →
      CustomerRead externalReference newCustomer customer h' →
      Here t (if newCustomer then [.insertCustomer customer] else []) h'
        (CustomerFacts newCustomer customer ++ F) s' →
      Follows t (K (.ok customer)) s')
    (herr : OnFault t h₀ F fun e => K (.error e)) :
    Follows t ((findOrCreateCustomer externalReference).run >>= K) s := by
  unfold findOrCreateCustomer
  rw [run_bind_bind]
  refine follows_findCustomer hr hs (fun h s hr hread hs => ?_)
    (fun customer h s hr hread hs => hk false customer h s hr hread hs) herr
  simp only []
  -- A new customer is inserted, with an id of its own.
  rw [run_bind_bind]
  refine follows_uuid4 hs fun id s hs => ?_
  simp only []
  rw [run_bind_bind]
  exact follows_flush_of_resumes hr hs (by simp) (fun _ _ _ => checkAll_insert_ne_stale ⟨_, rfl⟩)
    (fun s hs => hk true _ h s hr ⟨rfl, hread⟩ hs) fun s hs => herr.onTaken.refused hr hs

/-- An ingestion claims no case. -/
theorem claimOf_paymentStmts (newCustomer : Bool) (customer : Customer) (payment : Payment)
    (correlationId : String) (now : Time) {sts : List Stmt}
    (hsts : ∀ st ∈ sts, st.caseUpdate? = none) :
    claimOf (paymentStmts newCustomer customer payment correlationId now ++ sts) = none := by
  refine claimOf_eq_none_of_forall fun st hst => ?_
  rcases List.mem_append.mp hst with hst | hst
  · -- The statements are those of the customer, the payment and the event: none is about a case.
    cases newCustomer <;>
      simp only [paymentStmts, if_true, if_false, Bool.false_eq_true, List.nil_append,
        List.cons_append, List.mem_cons, List.not_mem_nil, or_false] at hst
    · rcases hst with rfl | rfl | rfl <;> rfl
    · rcases hst with rfl | rfl | rfl | rfl <;> rfl
  · exact hsts st hst

/-- The customer of an ingestion is there to be updated. -/
theorem checkAll_updateCustomer_ne_stale {newCustomer : Bool} {customer after : Customer}
    {payment : Payment} {db : Db} (hF : Facts (CustomerFacts newCustomer customer ++ F) db) :
    Store.checkAll [.updateCustomer customer after, .insertPayment payment]
      (Store.applyAll (if newCustomer then [.insertCustomer customer] else []) db) ≠
        some .stale := by
  -- The customer was found, or has just been inserted by the operation itself.
  have hexists : (Store.applyAll (if newCustomer then [Stmt.insertCustomer customer] else [])
      db).CustomerExists customer.id := by
    cases newCustomer with
    | true => exact Table.get?_isSome_of_mem (List.mem_append_right _ (List.mem_singleton_self _))
    | false => exact hF (.customerExists customer.id) List.mem_cons_self
  have hcheck : Store.check (Stmt.updateCustomer customer after)
      (Store.applyAll (if newCustomer then [Stmt.insertCustomer customer] else []) db) = none := by
    change Stmt.ifMatched _ = none
    rw [hexists]
    rfl
  rw [Store.checkAll, hcheck, Option.none_or]
  exact checkAll_insert_ne_stale ⟨_, rfl⟩

/-- The answer of an ingestion names a payment that is committed. -/
def Answers (request : PaymentIngestRequest) (response : PaymentIngestResponse)
    (F : List Fact) : Prop :=
  ∃ payment, .paymentSeen payment ∈ F ∧ payment.id = response.paymentId ∧
    payment.providerPaymentId = request.providerPaymentId

/-- The part of `ingest_payment` for a payment that is not yet known. -/
theorem follows_ingestNewPayment {request : PaymentIngestRequest}
    {K : Except Raised PaymentIngestResponse → Prog sig Outcome} [Between h₀]
    (hstarted : .started (.ingest request correlationId) ∈ h₀)
    (hunknown : ∀ providerPaymentId, truthy request.providerPaymentId = some providerPaymentId →
      .selected (.paymentByProviderPaymentId providerPaymentId) none ∈ h)
    (hr : Resumes h₀ h) (hs : Here t [] h F s)
    (hk : ∀ response h' G s', Resumes h₀ h' → Answers request response G → Here t [] h' G s' →
      Follows t (K (.ok response)) s')
    (herr : OnFault t h₀ F fun e => K (.error e)) :
    Follows t ((ingestNewPayment request correlationId).run >>= K) s := by
  -- The look-up of the payment is still there when the customer has been found.
  have hunknown' : ∀ {h'}, Resumes h h' → ∀ providerPaymentId,
      truthy request.providerPaymentId = some providerPaymentId →
      .selected (.paymentByProviderPaymentId providerPaymentId) none ∈ h' :=
    fun hr id hid => hr.suffix.mem (hunknown id hid)
  unfold ingestNewPayment
  rw [run_bind_bind]
  -- The customer first.
  refine follows_findOrCreateCustomer (.refl hr.idle) hs (fun newCustomer customer h' s hr' hread hs =>
    ?_) fun e h' p s hr' hclean hf hs => herr e h' p s (hr.trans hr') hclean hf hs
  have hunknown := hunknown' hr'
  have hr := hr.trans hr'
  have hFG : ∀ f ∈ F, f ∈ CustomerFacts newCustomer customer ++ F := fun f hf =>
    List.mem_append_right _ hf
  have herr := herr.mono hFG
  simp only []
  rw [run_bind_bind]
  refine follows_uuid4 hs fun id s hs => ?_
  simp only []
  rw [run_bind_bind]
  refine follows_now hs fun createdAt s hs => ?_
  have hr := hr.clock createdAt
  simp only []
  rw [run_bind_bind]
  refine follows_now hs fun updatedAt s hs => ?_
  have hr := hr.clock updatedAt
  simp only []
  rw [run_bind_bind]
  -- The counters of the customer and the payment go out in one flush.
  refine follows_flush_of_resumes hr hs (by simp) (fun db hF _ => checkAll_updateCustomer_ne_stale hF)
    (fun s hs => ?_) fun s hs => herr.onTaken.refused hr hs
  simp only []
  rw [run_bind_bind]
  refine follows_recordEvent hs fun now s hs => ?_
  have hr := hr.clock now
  let i : Ingestion :=
    { request, correlationId, newCustomer, customer, paymentId := id, createdAt, updatedAt, t := now }
  have hknown : ∀ {h'' : List Event}, (∀ e ∈ h', e ∈ h'') → Resumes h₀ h'' → i.Known h'' :=
    fun hsub hr =>
      { started := hr.suffix.mem hstarted
        unknown := fun id hid => hsub _ (hunknown id hid)
        customer := hread.mono hsub }
  -- What was flushed so far is what the rule calls the statements of the ingestion.
  have hs := hs.restate i.stmts (List.append_assoc ..)
  simp only []
  rw [run_bind_bind, createCaseIfFailed, run_ite_bind]
  split_ifs with hcase
  · -- The payment has failed and is to have a case, opened in the same transaction.
    rw [run_map_bind]
    have hr₀ : Proceeds none _ _ := .refl hr.idle
    have hopen : MayOpen (.clock now :: .clock updatedAt :: .clock createdAt :: h') i.payment.id :=
      .inl ⟨request, correlationId, hr.suffix.mem hstarted⟩
    refine follows_createCase hr₀ hs hopen
      (fun caseId openedAt auditedAt h'' s hr'' _ hs => ?_)
      fun h' s hr' hrefused hs => herr.onTaken.unopened h' s (hr.trans hr') hrefused hs
    have hsub : ∀ e ∈ h', e ∈ h'' := fun e he => hr''.suffix.mem (by simp [he])
    have hr := hr.trans hr''.toResumes
    simp only []
    rw [run_bind_bind]
    refine follows_commit hs (fun db _ _ => ?_) fun db s _ hc hdb hs => ?_
    · exact .ingestedWithCase i caseId openedAt auditedAt hr.between hr.idle
        (hknown hsub hr) hcase.2
    · -- The payment is there after its own statements, and stays there.
      have hseen : s.db.PaymentSeen i.payment := by
        rw [Store.checkAll_append, Option.or_eq_none_iff] at hc
        rw [hdb, Store.applyAll_append]
        exact (paymentSeen_of_paymentStmts hc.1).evolves (.applyAll hc.2)
      have hno : claimOf (i.stmts ++ openingStmts caseId i.payment openedAt correlationId
          auditedAt) = none := claimOf_paymentStmts _ _ _ _ _ <|
        forall_mem_openingStmts (fun _ => rfl) (fun _ _ _ _ => rfl) _ _ _ _
      exact hk _ _ _ s (hr.committed hno) ⟨i.payment, List.mem_cons_self, rfl, rfl⟩
        (hs.learn (f := .paymentSeen i.payment) hseen)
  · -- No case is opened.
    refine follows_pure ?_
    simp only []
    rw [run_bind_bind]
    have hsub : ∀ e ∈ h', e ∈ .clock now :: .clock updatedAt :: .clock createdAt :: h' :=
      fun e he => by simp [he]
    refine follows_commit hs (fun db _ _ => ?_) fun db s _ hc hdb hs => ?_
    · exact .ingested i hr.between hr.idle (hknown hsub hr)
    · have hclaim : claimOf (i.stmts ++ []) = none := claimOf_paymentStmts _ _ _ _ _ (by simp)
      rw [List.append_nil] at hclaim
      exact hk _ _ _ s (hr.committed hclaim) ⟨i.payment, List.mem_cons_self, rfl, rfl⟩
        (hs.learn (f := .paymentSeen i.payment) (hdb ▸ paymentSeen_of_paymentStmts hc))

/-- A payment that is found by its provider id carries it. -/
theorem Db.of_paymentByProviderPaymentId {db : Db} {ranking : List Uuid} {providerPaymentId : String}
    {payment : Payment}
    (hq : Query.eval db ranking (.paymentByProviderPaymentId providerPaymentId) = some payment) :
    payment ∈ db.payments ∧ payment.providerPaymentId = some providerPaymentId := by
  have hmem := List.mem_of_head? hq
  -- The select takes the first of the rows with this id.
  rw [orderedBy, List.mem_insertionSort, List.mem_filter] at hmem
  exact ⟨hmem.1, by simpa using hmem.2⟩

/-- A string that counts as given is given. -/
theorem eq_some_of_truthy {v : Option String} {a : String} (h : truthy v = some a) : v = some a :=
  (Option.filter_eq_some_iff.mp h).1

/-- **Ingestion keeps the protocol.** -/
theorem follows_ingestPayment {request : PaymentIngestRequest}
    {K : Except Raised PaymentIngestResponse → Prog sig Outcome} [Between h]
    (hidle : phase h = .idle) (hstarted : .started (.ingest request correlationId) ∈ h)
    (hs : Here t [] h F s)
    (hk : ∀ response h' G s', Resumes h h' → Answers request response G → Here t [] h' G s' →
      Follows t (K (.ok response)) s')
    (herr : OnFault t h F fun e => K (.error e)) :
    Follows t ((ingestPayment request correlationId).run >>= K) s := by
  have hr := Resumes.refl hidle
  unfold ingestPayment
  split
  · -- Without a provider id no payment counts as known.
    next hnone =>
    refine follows_ingestNewPayment hstarted (fun id hid => ?_) hr hs hk herr
    rw [hnone] at hid
    cases hid
  · next providerPaymentId hid =>
    rw [run_bind_bind]
    refine follows_select hs (fun _ _ => rfl) fun ids s hs => ?_
    have hr := hr.selected (.paymentByProviderPaymentId providerPaymentId)
      (Query.eval s.db ids (.paymentByProviderPaymentId providerPaymentId)) rfl
    cases hq : Query.eval s.db ids (.paymentByProviderPaymentId providerPaymentId) with
    | none =>
      -- The id is not known.
      rw [hq] at hs hr
      refine follows_ingestNewPayment hstarted (fun id hid' => ?_) hr hs hk herr
      rw [hid, Option.some.injEq] at hid'
      exact hid' ▸ List.mem_cons_self
    | some payment =>
      -- It is: the payment is noted as a duplicate and answered with, and no case is opened for
      -- it.
      rw [hq] at hs hr
      obtain ⟨hmem, hpid⟩ := Db.of_paymentByProviderPaymentId hq
      have hs := hs.learn (f := .paymentSeen payment)
        (.of_get? (hs.consistent.distinct.paymentId.get?_of_mem hmem))
      simp only []
      rw [run_bind_bind]
      refine follows_select hs (fun _ _ => rfl) fun ids s hs => ?_
      have hr := hr.selected (.caseByPayment payment.id)
        (Query.eval s.db ids (.caseByPayment payment.id)) rfl
      simp only []
      rw [run_bind_bind]
      refine follows_recordEvent hs fun now s hs => ?_
      have hr := hr.clock now
      simp only []
      rw [run_bind_bind]
      refine follows_commit hs (fun db _ _ => ?_) fun db s _ _ _ hs => ?_
      · exact .deduplicated payment providerPaymentId correlationId now hr.between hr.idle
          (by simp)
      · have hno : claimOf [auditStmt (.payment payment.id)
            (.paymentIngestDeduplicated providerPaymentId) .system correlationId now] = none :=
          claimOf_eq_none_of_forall (by simp [auditStmt, Stmt.caseUpdate?])
        exact hk _ _ _ s (hr.committed hno) ⟨payment, List.mem_cons_self, rfl,
          hpid.trans (eq_some_of_truthy hid).symm⟩ hs

end RecoverAI
