import RecoverAI.Models.Statements

/-!
# How the database evolves

`Db.Evolves` is what flushed and checked statements do to the database at most:
rows stay, unique columns stay, and a recovery case whose version has not moved
has not changed at all. The last point is what the version counter is for: a
session that has read a row and still finds its version there knows the row
(`Db.CaseSeen.of_check`).

`Db.CaseSeen` and its siblings are the facts a session may keep from a read. They
are preserved by evolution, so no other session can invalidate them.
-/

namespace RecoverAI

open Interleave

/-- `r'` is what has become of the recovery case `r`. -/
structure RecoveryCase.Becomes (r r' : RecoveryCase) : Prop where
  id : r'.id = r.id
  paymentId : r'.paymentId = r.paymentId
  revenueAtRisk : r'.revenueAtRisk = r.revenueAtRisk
  createdAt : r'.createdAt = r.createdAt
  version : r.version ≤ r'.version
  unchanged : r'.version = r.version → r' = r

/-- `a'` is what has become of the attempt `a`. -/
structure RecoveryAttempt.Becomes (a a' : RecoveryAttempt) : Prop where
  id : a'.id = a.id
  recoveryCaseId : a'.recoveryCaseId = a.recoveryCaseId
  idempotencyKey : a'.idempotencyKey = a.idempotencyKey

/-- `l'` is what has become of the payment link `l`. -/
structure RecoveryPaymentRequest.Becomes (l l' : RecoveryPaymentRequest) : Prop where
  id : l'.id = l.id
  recoveryCaseId : l'.recoveryCaseId = l.recoveryCaseId
  recoveryAttemptId : l'.recoveryAttemptId = l.recoveryAttemptId
  providerReference : l'.providerReference = l.providerReference
  referenceId : l'.referenceId = l.referenceId
  amount : l'.amount = l.amount
  currency : l'.currency = l.currency

/-- What checked statements do to a database at most. -/
structure Db.Evolves (db db' : Db) : Prop where
  customer : ∀ id r, db.customers.get? id = some r → ∃ r', db'.customers.get? id = some r'
  payment : ∀ id r, db.payments.get? id = some r → db'.payments.get? id = some r
  recoveryCase : ∀ id r, db.recoveryCases.get? id = some r →
    ∃ r', db'.recoveryCases.get? id = some r' ∧ r.Becomes r'
  attempt : ∀ id a, db.recoveryAttempts.get? id = some a →
    ∃ a', db'.recoveryAttempts.get? id = some a' ∧ a.Becomes a'
  paymentRequest : ∀ id l, db.recoveryPaymentRequests.get? id = some l →
    ∃ l', db'.recoveryPaymentRequests.get? id = some l' ∧ l.Becomes l'
  dedupKey : ∀ k, Stmt.taken db.processedWebhookEvents ProcessedWebhookEvent.dedupKey k →
    Stmt.taken db'.processedWebhookEvents ProcessedWebhookEvent.dedupKey k

namespace RecoveryCase.Becomes

variable {r r' r'' : RecoveryCase}

theorem refl (r : RecoveryCase) : r.Becomes r := ⟨rfl, rfl, rfl, rfl, le_rfl, fun _ => rfl⟩

theorem trans (h : r.Becomes r') (h' : r'.Becomes r'') : r.Becomes r'' where
  id := h'.id.trans h.id
  paymentId := h'.paymentId.trans h.paymentId
  revenueAtRisk := h'.revenueAtRisk.trans h.revenueAtRisk
  createdAt := h'.createdAt.trans h.createdAt
  version := h.version.trans h'.version
  unchanged := by
    intro he
    have h1 := h.version
    have h2 := h'.version
    rw [h'.unchanged (by omega), h.unchanged (by omega)]

/-- A checked update moves the version. -/
theorem write {b : RecoveryCase} (a : RecoveryCase) (h : r.version = b.version) :
    r.Becomes (b.write a r) where
  id := rfl
  paymentId := rfl
  revenueAtRisk := rfl
  createdAt := rfl
  version := by simp only [RecoveryCase.write]; omega
  unchanged := by simp only [RecoveryCase.write]; omega

end RecoveryCase.Becomes

theorem RecoveryAttempt.Becomes.refl (a : RecoveryAttempt) : a.Becomes a := ⟨rfl, rfl, rfl⟩

theorem RecoveryAttempt.Becomes.trans {a a' a'' : RecoveryAttempt} (h : a.Becomes a')
    (h' : a'.Becomes a'') : a.Becomes a'' :=
  ⟨h'.id.trans h.id, h'.recoveryCaseId.trans h.recoveryCaseId,
    h'.idempotencyKey.trans h.idempotencyKey⟩

theorem RecoveryPaymentRequest.Becomes.refl (l : RecoveryPaymentRequest) : l.Becomes l :=
  ⟨rfl, rfl, rfl, rfl, rfl, rfl, rfl⟩

theorem RecoveryPaymentRequest.Becomes.trans {l l' l'' : RecoveryPaymentRequest}
    (h : l.Becomes l') (h' : l'.Becomes l'') : l.Becomes l'' :=
  ⟨h'.id.trans h.id, h'.recoveryCaseId.trans h.recoveryCaseId,
    h'.recoveryAttemptId.trans h.recoveryAttemptId,
    h'.providerReference.trans h.providerReference, h'.referenceId.trans h.referenceId,
    h'.amount.trans h.amount, h'.currency.trans h.currency⟩

namespace Db.Evolves

variable {db db' db'' : Db}

theorem refl (db : Db) : db.Evolves db where
  customer := fun _ r h => ⟨r, h⟩
  payment := fun _ _ h => h
  recoveryCase := fun _ r h => ⟨r, h, .refl r⟩
  attempt := fun _ a h => ⟨a, h, .refl a⟩
  paymentRequest := fun _ l h => ⟨l, h, .refl l⟩
  dedupKey := fun _ h => h

theorem trans (h : db.Evolves db') (h' : db'.Evolves db'') : db.Evolves db'' where
  customer := fun id r hr => by
    obtain ⟨r₁, hr₁⟩ := h.customer id r hr
    exact h'.customer id r₁ hr₁
  payment := fun id r hr => h'.payment id r (h.payment id r hr)
  recoveryCase := fun id r hr => by
    obtain ⟨r₁, hr₁, hb₁⟩ := h.recoveryCase id r hr
    obtain ⟨r₂, hr₂, hb₂⟩ := h'.recoveryCase id r₁ hr₁
    exact ⟨r₂, hr₂, hb₁.trans hb₂⟩
  attempt := fun id a ha => by
    obtain ⟨a₁, ha₁, hb₁⟩ := h.attempt id a ha
    obtain ⟨a₂, ha₂, hb₂⟩ := h'.attempt id a₁ ha₁
    exact ⟨a₂, ha₂, hb₁.trans hb₂⟩
  paymentRequest := fun id l hl => by
    obtain ⟨l₁, hl₁, hb₁⟩ := h.paymentRequest id l hl
    obtain ⟨l₂, hl₂, hb₂⟩ := h'.paymentRequest id l₁ hl₁
    exact ⟨l₂, hl₂, hb₁.trans hb₂⟩
  dedupKey := fun k hk => h'.dedupKey k (h.dedupKey k hk)

/-- An update finds a row where there was one. -/
private theorem get?_update_of_some {ρ : Type} [Keyed ρ Uuid] {t : Table ρ} {k id : Uuid}
    {f : ρ → ρ} (hf : Table.KeepsKey f) {r : ρ} (h : t.get? id = some r) :
    (t.update k f).get? id = some (if k = id then f r else r) := by
  rw [Table.get?_update hf, h]
  split <;> rfl

/-- **A checked statement lets the database evolve.** -/
theorem apply {st : Stmt} (h : st.check db = none) : db.Evolves (st.apply db) := by
  have hr := Evolves.refl db
  cases st with
  | insertCustomer r =>
    exact { hr with customer := fun id c hc => ⟨c, Table.get?_append_of_some hc _⟩ }
  | updateCustomer b a =>
    exact { hr with customer := fun id c hc =>
              ⟨_, get?_update_of_some (Customer.keepsKey_write b a) hc⟩ }
  | insertPayment r =>
    exact { hr with payment := fun id p hp => Table.get?_append_of_some hp _ }
  | insertCase r =>
    exact { hr with recoveryCase := fun id c hc =>
              ⟨c, Table.get?_append_of_some hc _, .refl c⟩ }
  | updateCase b a =>
    refine { hr with recoveryCase := fun id c hc => ?_ }
    refine ⟨_, get?_update_of_some (RecoveryCase.keepsKey_write b a) hc, ?_⟩
    split
    · next hid =>
      -- the check has matched the version of this very row
      simp only [Stmt.check, Stmt.ifMatched, hid, hc, Option.any_some, decide_eq_true_eq] at h
      exact .write a (by by_contra hv; simp [hv] at h)
    · exact .refl c
  | insertAttempt r =>
    exact { hr with attempt := fun id a ha => ⟨a, Table.get?_append_of_some ha _, .refl a⟩ }
  | updateAttempt b a =>
    refine { hr with attempt := fun id c hc =>
              ⟨_, get?_update_of_some (RecoveryAttempt.keepsKey_write b a) hc, ?_⟩ }
    split
    · exact ⟨rfl, rfl, rfl⟩
    · exact .refl c
  | insertPaymentRequest r =>
    exact { hr with paymentRequest := fun id l hl =>
              ⟨l, Table.get?_append_of_some hl _, .refl l⟩ }
  | updatePaymentRequest b a =>
    refine { hr with paymentRequest := fun id c hc =>
              ⟨_, get?_update_of_some (RecoveryPaymentRequest.keepsKey_write b a) hc, ?_⟩ }
    split
    · exact ⟨rfl, rfl, rfl, rfl, rfl, rfl, rfl⟩
    · exact .refl c
  | insertProcessedWebhookEvent r =>
    refine { hr with dedupKey := fun k hk => ?_ }
    simp only [Stmt.apply, Stmt.taken_append, hk, Bool.true_or]
  | insertAuditEvent r => exact { hr with }

theorem applyAll {sts : List Stmt} (h : Store.checkAll sts db = none) :
    db.Evolves (Store.applyAll sts db) :=
  Store.applyAll_invariant_of_checkAll (fun _ _ hst hev => hev.trans (apply hst)) h (.refl db)

end Db.Evolves

/-! ### What a read is worth -/

/-- The recovery case was committed as `r` at some point. -/
def Db.CaseSeen (db : Db) (r : RecoveryCase) : Prop :=
  ∃ r', db.recoveryCases.get? r.id = some r' ∧ r.Becomes r'

/-- The payment was committed as `p`; payments do not change. -/
def Db.PaymentSeen (db : Db) (p : Payment) : Prop := db.payments.get? p.id = some p

/-- The attempt was committed as `a` at some point. -/
def Db.AttemptSeen (db : Db) (a : RecoveryAttempt) : Prop :=
  ∃ a', db.recoveryAttempts.get? a.id = some a' ∧ a.Becomes a'

/-- There is a customer with this id. -/
def Db.CustomerExists (db : Db) (id : Uuid) : Prop := (db.customers.get? id).isSome

/-- There is an attempt with this id. -/
def Db.AttemptExists (db : Db) (id : Uuid) : Prop := (db.recoveryAttempts.get? id).isSome

/-- The payment link was committed as `l` at some point. -/
def Db.LinkSeen (db : Db) (l : RecoveryPaymentRequest) : Prop :=
  ∃ l', db.recoveryPaymentRequests.get? l.id = some l' ∧ l.Becomes l'

/-- The recovery case was committed as `r` and has changed since. -/
def Db.Outdated (db : Db) (r : RecoveryCase) : Prop :=
  ∃ r', db.recoveryCases.get? r.id = some r' ∧ r.version < r'.version

/-- The dedup key has been claimed. -/
def Db.Claimed (db : Db) (key : String) : Prop :=
  Stmt.taken db.processedWebhookEvents ProcessedWebhookEvent.dedupKey key = true

namespace Db

variable {db db' : Db}

theorem CaseSeen.of_get? {id : Uuid} {r : RecoveryCase}
    (h : db.recoveryCases.get? id = some r) : db.CaseSeen r :=
  ⟨r, by rw [show r.id = id from Table.key_of_get? h]; exact h, .refl r⟩

theorem PaymentSeen.of_get? {id : Uuid} {p : Payment}
    (h : db.payments.get? id = some p) : db.PaymentSeen p := by
  rw [PaymentSeen, show p.id = id from Table.key_of_get? h]; exact h

theorem AttemptSeen.of_get? {id : Uuid} {a : RecoveryAttempt}
    (h : db.recoveryAttempts.get? id = some a) : db.AttemptSeen a :=
  ⟨a, by rw [show a.id = id from Table.key_of_get? h]; exact h, .refl a⟩

theorem LinkSeen.of_get? {id : Uuid} {l : RecoveryPaymentRequest}
    (h : db.recoveryPaymentRequests.get? id = some l) : db.LinkSeen l :=
  ⟨l, by rw [show l.id = id from Table.key_of_get? h]; exact h, .refl l⟩

theorem CaseSeen.evolves {r : RecoveryCase} (h : db.CaseSeen r) (he : db.Evolves db') :
    db'.CaseSeen r := by
  obtain ⟨r₁, hr₁, hb₁⟩ := h
  obtain ⟨r₂, hr₂, hb₂⟩ := he.recoveryCase _ _ hr₁
  exact ⟨r₂, hr₂, hb₁.trans hb₂⟩

theorem PaymentSeen.evolves {p : Payment} (h : db.PaymentSeen p) (he : db.Evolves db') :
    db'.PaymentSeen p := he.payment _ _ h

theorem AttemptSeen.evolves {a : RecoveryAttempt} (h : db.AttemptSeen a) (he : db.Evolves db') :
    db'.AttemptSeen a := by
  obtain ⟨a₁, ha₁, hb₁⟩ := h
  obtain ⟨a₂, ha₂, hb₂⟩ := he.attempt _ _ ha₁
  exact ⟨a₂, ha₂, hb₁.trans hb₂⟩

theorem CustomerExists.evolves {id : Uuid} (h : db.CustomerExists id) (he : db.Evolves db') :
    db'.CustomerExists id := by
  obtain ⟨c, hc⟩ := Option.isSome_iff_exists.mp h
  obtain ⟨c', hc'⟩ := he.customer _ _ hc
  exact Option.isSome_iff_exists.mpr ⟨c', hc'⟩

theorem AttemptExists.evolves {id : Uuid} (h : db.AttemptExists id) (he : db.Evolves db') :
    db'.AttemptExists id := by
  obtain ⟨a, ha⟩ := Option.isSome_iff_exists.mp h
  obtain ⟨a', ha', -⟩ := he.attempt _ _ ha
  exact Option.isSome_iff_exists.mpr ⟨a', ha'⟩

theorem AttemptSeen.exists {a : RecoveryAttempt} (h : db.AttemptSeen a) :
    db.AttemptExists a.id := by
  obtain ⟨a', ha', -⟩ := h
  exact Option.isSome_iff_exists.mpr ⟨a', ha'⟩

theorem LinkSeen.evolves {l : RecoveryPaymentRequest} (h : db.LinkSeen l)
    (he : db.Evolves db') : db'.LinkSeen l := by
  obtain ⟨l₁, hl₁, hb₁⟩ := h
  obtain ⟨l₂, hl₂, hb₂⟩ := he.paymentRequest _ _ hl₁
  exact ⟨l₂, hl₂, hb₁.trans hb₂⟩

theorem Outdated.evolves {r : RecoveryCase} (h : db.Outdated r) (he : db.Evolves db') :
    db'.Outdated r := by
  obtain ⟨r₁, hr₁, hv⟩ := h
  obtain ⟨r₂, hr₂, hb₂⟩ := he.recoveryCase _ _ hr₁
  exact ⟨r₂, hr₂, hv.trans_le hb₂.version⟩

theorem Claimed.evolves {key : String} (h : db.Claimed key) (he : db.Evolves db') :
    db'.Claimed key := he.dedupKey key h

/-- A row that no longer has the version it was read with has changed. -/
theorem CaseSeen.outdated {r : RecoveryCase} (h : db.CaseSeen r)
    (hv : ∀ r', db.recoveryCases.get? r.id = some r' → r'.version ≠ r.version) :
    db.Outdated r := by
  obtain ⟨r₁, hr₁, hb⟩ := h
  exact ⟨r₁, hr₁, lt_of_le_of_ne hb.version (hv r₁ hr₁).symm⟩

/-- **What the version is for.** A checked update of a case found the very row that was
read. -/
theorem CaseSeen.of_check {r a : RecoveryCase} (h : db.CaseSeen r)
    (hc : (Stmt.updateCase r a).check db = none) : db.recoveryCases.get? r.id = some r := by
  obtain ⟨r₁, hr₁, hb⟩ := h
  simp only [Stmt.check, Stmt.ifMatched, hr₁, Option.any_some, decide_eq_true_eq] at hc
  have hv : r₁.version = r.version := by by_contra hv; simp [hv] at hc
  rw [hr₁, hb.unchanged hv]

end Db

end RecoverAI
