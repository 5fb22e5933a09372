import RecoverAI.Models.Integrity
import RecoverAI.Models.Evolution

/-!
# Foreign keys

A row names the rows it belongs to. `Stmt.Refers` is what the foreign keys of the schema ask
of an inserted row, in the state of the database in which it is inserted, and
`Stmt.RefersAll` the same of a list of statements, each after those before it. Rows are never
deleted and an update writes no such column, so what is asked of each row when it is inserted
holds of all rows ever after (`Db.Referential`).
-/

namespace RecoverAI

open Interleave

/-! ### The rows that are named -/

/-- There is a payment with this id. -/
def Db.PaymentExists (db : Db) (id : Uuid) : Prop := (db.payments.get? id).isSome

/-- There is a recovery case with this id. -/
def Db.CaseExists (db : Db) (id : Uuid) : Prop := (db.recoveryCases.get? id).isSome

/-- There is an attempt with this id, and it is one of the case. -/
def Db.AttemptOf (db : Db) (id caseId : Uuid) : Prop :=
  ∃ a, db.recoveryAttempts.get? id = some a ∧ a.recoveryCaseId = caseId

namespace Db

variable {db db' : Db} {id caseId : Uuid}

theorem PaymentExists.evolves (h : db.PaymentExists id) (he : db.Evolves db') :
    db'.PaymentExists id := by
  obtain ⟨p, hp⟩ := Option.isSome_iff_exists.mp h
  exact Option.isSome_iff_exists.mpr ⟨p, he.payment _ _ hp⟩

theorem CaseExists.evolves (h : db.CaseExists id) (he : db.Evolves db') : db'.CaseExists id := by
  obtain ⟨c, hc⟩ := Option.isSome_iff_exists.mp h
  obtain ⟨c', hc', -⟩ := he.recoveryCase _ _ hc
  exact Option.isSome_iff_exists.mpr ⟨c', hc'⟩

theorem AttemptOf.evolves (h : db.AttemptOf id caseId) (he : db.Evolves db') :
    db'.AttemptOf id caseId := by
  obtain ⟨a, ha, hcase⟩ := h
  obtain ⟨a', ha', hbecomes⟩ := he.attempt _ _ ha
  exact ⟨a', ha', hbecomes.recoveryCaseId.trans hcase⟩

theorem PaymentSeen.exists {p : Payment} (h : db.PaymentSeen p) : db.PaymentExists p.id :=
  Option.isSome_iff_exists.mpr ⟨p, h⟩

theorem CaseSeen.exists {c : RecoveryCase} (h : db.CaseSeen c) : db.CaseExists c.id := by
  obtain ⟨c', hc', -⟩ := h
  exact Option.isSome_iff_exists.mpr ⟨c', hc'⟩

end Db

/-! ### What a statement refers to -/

namespace Stmt

/-- The rows an inserted row names are there. A link names its case and an attempt, and the
attempt is one of that case. -/
def Refers : Stmt → Db → Prop
  | insertPayment row, db => db.CustomerExists row.customerId
  | insertCase row, db => db.PaymentExists row.paymentId
  | insertAttempt row, db => db.CaseExists row.recoveryCaseId
  | insertPaymentRequest row, db =>
    db.CaseExists row.recoveryCaseId ∧ db.AttemptOf row.recoveryAttemptId row.recoveryCaseId
  | _, _ => True

/-- Each statement refers to rows that are there when its turn comes. -/
def RefersAll : List Stmt → Db → Prop
  | [], _ => True
  | st :: sts, db => st.Refers db ∧ RefersAll sts (st.apply db)

variable {db db' : Db} {st : Stmt} {sts sts' : List Stmt}

/-- What is there stays. -/
theorem Refers.evolves (h : st.Refers db) (he : db.Evolves db') : st.Refers db' := by
  cases st with
  | insertPayment row => exact Db.CustomerExists.evolves h he
  | insertCase row => exact Db.PaymentExists.evolves h he
  | insertAttempt row => exact Db.CaseExists.evolves h he
  | insertPaymentRequest row => exact ⟨h.1.evolves he, h.2.evolves he⟩
  | _ => trivial

/-- The statement inserts no row that names another. -/
def Plain : Stmt → Prop
  | insertPayment _ | insertCase _ | insertAttempt _ | insertPaymentRequest _ => False
  | _ => True

theorem Plain.refers (h : st.Plain) (db : Db) : st.Refers db := by
  cases st <;> first | exact h.elim | trivial

theorem RefersAll.append (h : RefersAll sts db) (h' : RefersAll sts' (Store.applyAll sts db)) :
    RefersAll (sts ++ sts') db := by
  induction sts generalizing db with
  | nil => exact h'
  | cons st sts ih => exact ⟨h.1, ih h.2 h'⟩

/-- Statements that refer to what is there before all of them. -/
theorem RefersAll.of_forall (hc : Store.checkAll sts db = none) (h : ∀ st ∈ sts, st.Refers db) :
    RefersAll sts db := by
  induction sts generalizing db with
  | nil => trivial
  | cons st sts ih =>
    obtain ⟨hst, hsts⟩ := Store.checkAll_cons_eq_none.mp hc
    obtain ⟨hrefers, hrest⟩ := List.forall_mem_cons.mp h
    -- what the later ones refer to is still there after the first
    exact ⟨hrefers, ih hsts fun st' hst' => (hrest st' hst').evolves (.apply hst)⟩

end Stmt

/-! ### What all rows refer to -/

/-- **The foreign keys of the schema**: every row names rows that are there. -/
structure Db.Referential (db : Db) : Prop where
  payment : ∀ p ∈ db.payments, db.CustomerExists p.customerId
  recoveryCase : ∀ c ∈ db.recoveryCases, db.PaymentExists c.paymentId
  attempt : ∀ a ∈ db.recoveryAttempts, db.CaseExists a.recoveryCaseId
  paymentRequest : ∀ l ∈ db.recoveryPaymentRequests, db.CaseExists l.recoveryCaseId ∧
    db.AttemptOf l.recoveryAttemptId l.recoveryCaseId

namespace Db.Referential

variable {db : Db}

theorem empty : Db.empty.Referential where
  payment := fun _ hp => absurd hp List.not_mem_nil
  recoveryCase := fun _ hc => absurd hc List.not_mem_nil
  attempt := fun _ ha => absurd ha List.not_mem_nil
  paymentRequest := fun _ hl => absurd hl List.not_mem_nil

/-- Rows of a table of which all but the last were there before. -/
private theorem forall_mem_append {ρ : Type} {t : Table ρ} {row : ρ} {C C' : ρ → Prop}
    (h : ∀ r ∈ t, C r) (hrow : C row) (hC : ∀ r, C r → C' r) : ∀ r ∈ t ++ [row], C' r := by
  intro r hr
  rcases List.mem_append.mp hr with hr | hr
  · exact hC r (h r hr)
  · rw [List.mem_singleton.mp hr]
    exact hC row hrow

/-- Rows of a table of which one has been rewritten. -/
private theorem forall_mem_update {ρ : Type} [Keyed ρ Uuid] {t : Table ρ} {k : Uuid} {f : ρ → ρ}
    {C C' : ρ → Prop} (h : ∀ r ∈ t, C r) (hf : ∀ r, C r → C (f r)) (hC : ∀ r, C r → C' r) :
    ∀ r ∈ t.update k f, C' r := by
  intro r hr
  rcases Table.mem_update.mp hr with ⟨hr, -⟩ | ⟨r₀, hr₀, -, rfl⟩
  · exact hC r (h r hr)
  · exact hC _ (hf r₀ (h r₀ hr₀))

/-- **A statement that refers to what is there keeps the foreign keys.** -/
theorem apply {st : Stmt} (h : db.Referential) (hc : st.check db = none) (hr : st.Refers db) :
    (st.apply db).Referential := by
  have he : db.Evolves (st.apply db) := .apply hc
  have hpayment : ∀ p : Payment, db.CustomerExists p.customerId →
      (st.apply db).CustomerExists p.customerId := fun _ hp => hp.evolves he
  have hcase : ∀ c : RecoveryCase, db.PaymentExists c.paymentId →
      (st.apply db).PaymentExists c.paymentId := fun _ hp => hp.evolves he
  have hattempt : ∀ a : RecoveryAttempt, db.CaseExists a.recoveryCaseId →
      (st.apply db).CaseExists a.recoveryCaseId := fun _ hp => hp.evolves he
  have hlink : ∀ l : RecoveryPaymentRequest,
      db.CaseExists l.recoveryCaseId ∧ db.AttemptOf l.recoveryAttemptId l.recoveryCaseId →
      (st.apply db).CaseExists l.recoveryCaseId ∧
        (st.apply db).AttemptOf l.recoveryAttemptId l.recoveryCaseId :=
    fun _ hl => ⟨hl.1.evolves he, hl.2.evolves he⟩
  -- the rows of the tables that the statement leaves alone
  have hpayments : ∀ p ∈ db.payments, (st.apply db).CustomerExists p.customerId :=
    fun p hp => hpayment p (h.payment p hp)
  have hcases : ∀ c ∈ db.recoveryCases, (st.apply db).PaymentExists c.paymentId :=
    fun c hcs => hcase c (h.recoveryCase c hcs)
  have hattempts : ∀ a ∈ db.recoveryAttempts, (st.apply db).CaseExists a.recoveryCaseId :=
    fun a ha => hattempt a (h.attempt a ha)
  have hlinks : ∀ l ∈ db.recoveryPaymentRequests, (st.apply db).CaseExists l.recoveryCaseId ∧
      (st.apply db).AttemptOf l.recoveryAttemptId l.recoveryCaseId :=
    fun l hl => hlink l (h.paymentRequest l hl)
  cases st with
  | insertPayment row =>
    exact ⟨forall_mem_append h.payment hr hpayment, hcases, hattempts, hlinks⟩
  | insertCase row =>
    exact ⟨hpayments, forall_mem_append h.recoveryCase hr hcase, hattempts, hlinks⟩
  | updateCase before after =>
    exact ⟨hpayments, forall_mem_update h.recoveryCase (fun _ hc => hc) hcase, hattempts, hlinks⟩
  | insertAttempt row =>
    exact ⟨hpayments, hcases, forall_mem_append h.attempt hr hattempt, hlinks⟩
  | updateAttempt before after =>
    exact ⟨hpayments, hcases, forall_mem_update h.attempt (fun _ ha => ha) hattempt, hlinks⟩
  | insertPaymentRequest row =>
    exact ⟨hpayments, hcases, hattempts, forall_mem_append h.paymentRequest hr hlink⟩
  | updatePaymentRequest before after =>
    exact ⟨hpayments, hcases, hattempts,
      forall_mem_update h.paymentRequest (fun _ hl => hl) hlink⟩
  | _ => exact ⟨hpayments, hcases, hattempts, hlinks⟩

theorem applyAll {sts : List Stmt} (h : db.Referential) (hc : Store.checkAll sts db = none)
    (hr : Stmt.RefersAll sts db) : (Store.applyAll sts db).Referential := by
  induction sts generalizing db with
  | nil => exact h
  | cons st sts ih =>
    obtain ⟨hst, hsts⟩ := Store.checkAll_cons_eq_none.mp hc
    exact ih (h.apply hst hr.1) hsts hr.2

end Db.Referential

end RecoverAI
