import RecoverAI.Framework.Transactions
import RecoverAI.Models.Rows

/-!
# Statements

What a session flushes: inserts, and updates of rows it has read. Each statement
comes with the check the database makes (primary keys and unique columns for an
insert, the version of a recovery case for its update), with its effect, and with
the keys it locks until its transaction ends: the row, and for an insert the
values of its unique columns. Foreign keys are not checked, since rows are never
deleted.
-/

namespace RecoverAI

open Interleave

/-- A flushed statement. An update carries the row as it was read and the row as
the session wants it. -/
inductive Stmt where
  | insertCustomer (row : Customer)
  | updateCustomer (before after : Customer)
  | insertPayment (row : Payment)
  | insertCase (row : RecoveryCase)
  | updateCase (before after : RecoveryCase)
  | insertAttempt (row : RecoveryAttempt)
  | updateAttempt (before after : RecoveryAttempt)
  | insertPaymentRequest (row : RecoveryPaymentRequest)
  | updatePaymentRequest (before after : RecoveryPaymentRequest)
  | insertProcessedWebhookEvent (row : ProcessedWebhookEvent)
  | insertAuditEvent (row : AuditEvent)
  deriving DecidableEq, Repr

/-- What a statement locks. -/
inductive RowKey where
  | customer (id : Uuid)
  | payment (id : Uuid)
  | recoveryCase (id : Uuid)
  | casePayment (paymentId : Uuid)
  | attempt (id : Uuid)
  | idempotencyKey (value : Option String)
  | paymentRequest (id : Uuid)
  | paymentRequestAttempt (attemptId : Uuid)
  | providerReference (value : String)
  | referenceId (value : String)
  | dedupKey (value : String)
  deriving DecidableEq, Repr

/-- Why a flush fails: a violated constraint (a unique value that is taken, or the null type of
an event), or an update that matched no row. -/
inductive DbError where
  | integrity
  | stale
  deriving DecidableEq, Repr

namespace Stmt

def keys : Stmt → List RowKey
  | insertCustomer r => [.customer r.id]
  | updateCustomer b _ => [.customer b.id]
  | insertPayment r => [.payment r.id]
  | insertCase r => [.recoveryCase r.id, .casePayment r.paymentId]
  | updateCase b _ => [.recoveryCase b.id]
  | insertAttempt r => [.attempt r.id, .idempotencyKey r.idempotencyKey]
  | updateAttempt b _ => [.attempt b.id]
  | insertPaymentRequest r =>
    [.paymentRequest r.id, .paymentRequestAttempt r.recoveryAttemptId,
      .providerReference r.providerReference, .referenceId r.referenceId]
  | updatePaymentRequest b _ => [.paymentRequest b.id]
  | insertProcessedWebhookEvent r => [.dedupKey r.dedupKey]
  | insertAuditEvent _ => []

/-- A unique column already holds the value. -/
def taken {ρ α : Type} [DecidableEq α] (t : Table ρ) (column : ρ → α) (a : α) : Bool :=
  t.any fun r => column r = a

/-- An insert needs its unique columns to be free. -/
def unlessTaken (b : Bool) : Option DbError := if b then some .integrity else none

theorem eq_integrity_of_unlessTaken {b : Bool} {e : DbError} (h : unlessTaken b = some e) :
    e = .integrity := by
  unfold unlessTaken at h
  split at h <;> cases h
  rfl

theorem eq_false_of_unlessTaken {b : Bool} (h : unlessTaken b = none) : b = false := by
  unfold unlessTaken at h
  split at h
  · cases h
  · next hb => exact Bool.eq_false_of_not_eq_true hb

/-- An update has to match a row. -/
def ifMatched (b : Bool) : Option DbError := if b then none else some .stale

def check : Stmt → Db → Option DbError
  | insertCustomer r, db => unlessTaken (db.customers.get? r.id).isSome
  | updateCustomer b _, db => ifMatched (db.customers.get? b.id).isSome
  | insertPayment r, db => unlessTaken (db.payments.get? r.id).isSome
  | insertCase r, db =>
    unlessTaken ((db.recoveryCases.get? r.id).isSome ||
      taken db.recoveryCases RecoveryCase.paymentId r.paymentId)
  | updateCase b _, db =>
    ifMatched ((db.recoveryCases.get? b.id).any fun r => r.version = b.version)
  | insertAttempt r, db =>
    unlessTaken ((db.recoveryAttempts.get? r.id).isSome ||
      (r.idempotencyKey.isSome &&
        taken db.recoveryAttempts RecoveryAttempt.idempotencyKey r.idempotencyKey))
  | updateAttempt b _, db => ifMatched (db.recoveryAttempts.get? b.id).isSome
  | insertPaymentRequest r, db =>
    unlessTaken ((db.recoveryPaymentRequests.get? r.id).isSome ||
      taken db.recoveryPaymentRequests RecoveryPaymentRequest.recoveryAttemptId
        r.recoveryAttemptId ||
      taken db.recoveryPaymentRequests RecoveryPaymentRequest.providerReference
        r.providerReference ||
      taken db.recoveryPaymentRequests RecoveryPaymentRequest.referenceId r.referenceId)
  | updatePaymentRequest b _, db => ifMatched (db.recoveryPaymentRequests.get? b.id).isSome
  -- `event_type` is not nullable
  | insertProcessedWebhookEvent r, db =>
    unlessTaken (r.eventType.isNone ||
      taken db.processedWebhookEvents ProcessedWebhookEvent.dedupKey r.dedupKey)
  | insertAuditEvent _, _ => none

def apply : Stmt → Db → Db
  | insertCustomer r, db => { db with customers := db.customers ++ [r] }
  | updateCustomer b a, db => { db with customers := db.customers.update b.id (b.write a) }
  | insertPayment r, db => { db with payments := db.payments ++ [r] }
  | insertCase r, db => { db with recoveryCases := db.recoveryCases ++ [r] }
  | updateCase b a, db =>
    { db with recoveryCases := db.recoveryCases.update b.id (b.write a) }
  | insertAttempt r, db => { db with recoveryAttempts := db.recoveryAttempts ++ [r] }
  | updateAttempt b a, db =>
    { db with recoveryAttempts := db.recoveryAttempts.update b.id (b.write a) }
  | insertPaymentRequest r, db =>
    { db with recoveryPaymentRequests := db.recoveryPaymentRequests ++ [r] }
  | updatePaymentRequest b a, db =>
    { db with recoveryPaymentRequests := db.recoveryPaymentRequests.update b.id (b.write a) }
  | insertProcessedWebhookEvent r, db =>
    { db with processedWebhookEvents := db.processedWebhookEvents ++ [r] }
  | insertAuditEvent r, db => { db with auditEvents := db.auditEvents ++ [r] }

/-- Two states agree on what a key protects: on a row, or on whether a value of a
unique column is taken. -/
def same : RowKey → Db → Db → Prop
  | .customer id, db, db' => db'.customers.get? id = db.customers.get? id
  | .payment id, db, db' => db'.payments.get? id = db.payments.get? id
  | .recoveryCase id, db, db' => db'.recoveryCases.get? id = db.recoveryCases.get? id
  | .casePayment p, db, db' =>
    taken db'.recoveryCases RecoveryCase.paymentId p =
      taken db.recoveryCases RecoveryCase.paymentId p
  | .attempt id, db, db' => db'.recoveryAttempts.get? id = db.recoveryAttempts.get? id
  | .idempotencyKey v, db, db' =>
    taken db'.recoveryAttempts RecoveryAttempt.idempotencyKey v =
      taken db.recoveryAttempts RecoveryAttempt.idempotencyKey v
  | .paymentRequest id, db, db' =>
    db'.recoveryPaymentRequests.get? id = db.recoveryPaymentRequests.get? id
  | .paymentRequestAttempt a, db, db' =>
    taken db'.recoveryPaymentRequests RecoveryPaymentRequest.recoveryAttemptId a =
      taken db.recoveryPaymentRequests RecoveryPaymentRequest.recoveryAttemptId a
  | .providerReference v, db, db' =>
    taken db'.recoveryPaymentRequests RecoveryPaymentRequest.providerReference v =
      taken db.recoveryPaymentRequests RecoveryPaymentRequest.providerReference v
  | .referenceId v, db, db' =>
    taken db'.recoveryPaymentRequests RecoveryPaymentRequest.referenceId v =
      taken db.recoveryPaymentRequests RecoveryPaymentRequest.referenceId v
  | .dedupKey v, db, db' =>
    taken db'.processedWebhookEvents ProcessedWebhookEvent.dedupKey v =
      taken db.processedWebhookEvents ProcessedWebhookEvent.dedupKey v

/-! ### Tables -/

/-- The table a statement writes. -/
inductive TableName where
  | customers | payments | recoveryCases | recoveryAttempts | recoveryPaymentRequests
  | processedWebhookEvents | auditEvents
  deriving DecidableEq, Repr

def table : Stmt → TableName
  | insertCustomer _ => .customers
  | updateCustomer _ _ => .customers
  | insertPayment _ => .payments
  | insertCase _ => .recoveryCases
  | updateCase _ _ => .recoveryCases
  | insertAttempt _ => .recoveryAttempts
  | updateAttempt _ _ => .recoveryAttempts
  | insertPaymentRequest _ => .recoveryPaymentRequests
  | updatePaymentRequest _ _ => .recoveryPaymentRequests
  | insertProcessedWebhookEvent _ => .processedWebhookEvents
  | insertAuditEvent _ => .auditEvents

/-! ### The frame conditions -/

section Taken

variable {ρ α : Type} [DecidableEq α] (t u : Table ρ) (column : ρ → α) (a : α)

@[simp] theorem taken_append : taken (t ++ u) column a = (taken t column a || taken u column a) :=
  List.any_append

@[simp] theorem taken_singleton (r : ρ) : taken [r] column a = decide (column r = a) := by
  simp [taken]

/-- Updates leave the unique columns alone. -/
theorem taken_update {κ : Type} [Keyed ρ κ] [DecidableEq κ] {k : κ} {f : ρ → ρ}
    (hf : ∀ r, column (f r) = column r) : taken (t.update k f) column a = taken t column a := by
  rw [taken, taken, Table.update, List.any_map]
  congr 1
  funext r
  by_cases h : Keyed.key r = k <;> simp [h, hf]

end Taken

@[simp] theorem taken_paymentId_write {t : Table RecoveryCase} {k p : Uuid}
    {b a : RecoveryCase} : taken (t.update k (b.write a)) RecoveryCase.paymentId p =
      taken t RecoveryCase.paymentId p := taken_update _ _ _ fun _ => rfl

@[simp] theorem taken_idempotencyKey_write {t : Table RecoveryAttempt} {k : Uuid}
    {v : Option String} {b a : RecoveryAttempt} :
    taken (t.update k (b.write a)) RecoveryAttempt.idempotencyKey v =
      taken t RecoveryAttempt.idempotencyKey v := taken_update _ _ _ fun _ => rfl

section PaymentRequest

variable {t : Table RecoveryPaymentRequest} {k : Uuid} {b a : RecoveryPaymentRequest}

@[simp] theorem taken_recoveryAttemptId_write {v : Uuid} :
    taken (t.update k (b.write a)) RecoveryPaymentRequest.recoveryAttemptId v =
      taken t RecoveryPaymentRequest.recoveryAttemptId v := taken_update _ _ _ fun _ => rfl

@[simp] theorem taken_providerReference_write {v : String} :
    taken (t.update k (b.write a)) RecoveryPaymentRequest.providerReference v =
      taken t RecoveryPaymentRequest.providerReference v := taken_update _ _ _ fun _ => rfl

@[simp] theorem taken_referenceId_write {v : String} :
    taken (t.update k (b.write a)) RecoveryPaymentRequest.referenceId v =
      taken t RecoveryPaymentRequest.referenceId v := taken_update _ _ _ fun _ => rfl

end PaymentRequest

/-- A statement does the same to states that agree. -/
theorem same_apply (st : Stmt) (k : RowKey) {db db' : Db} (h : same k db db') :
    same k (st.apply db) (st.apply db') := by
  cases k <;> cases st <;>
    simp_all [same, apply, Table.get?_append, Table.get?_update,
      Customer.keepsKey_write, RecoveryCase.keepsKey_write, RecoveryAttempt.keepsKey_write,
      RecoveryPaymentRequest.keepsKey_write]

/-- A statement changes nothing outside its keys. -/
theorem same_of_notMem_keys (st : Stmt) (k : RowKey) (db : Db) (h : k ∉ st.keys) :
    same k db (st.apply db) := by
  cases k <;> cases st <;>
    simp_all [same, apply, keys, Table.get?_append, Table.get?_update, eq_comm,
      Customer.keepsKey_write, RecoveryCase.keepsKey_write, RecoveryAttempt.keepsKey_write,
      RecoveryPaymentRequest.keepsKey_write, Keyed.key]

/-- A check depends on the keys of its statement only. -/
theorem check_congr (st : Stmt) (db db' : Db) (h : ∀ k ∈ st.keys, same k db db') :
    st.check db' = st.check db := by
  cases st <;> simp_all [keys, same, check]

instance : LawfulStore Db Stmt RowKey DbError where
  check := check
  apply := apply
  keys := keys
  same := same
  same_refl := fun k db => by cases k <;> rfl
  same_trans := fun k _ _ _ h h' => by cases k <;> exact Eq.trans h' h
  check_congr := check_congr
  apply_congr := fun st k _ _ h => same_apply st k h
  apply_frame := same_of_notMem_keys

/-! ### Statements over other tables -/

section Frames

variable {sts : List Stmt} {db : Db}

theorem frame_customers (h : ∀ st ∈ sts, st.table ≠ .customers) :
    (Store.applyAll sts db).customers = db.customers :=
  Store.applyAll_unchanged Db.customers fun st hst db => by
    have h := h st hst
    cases st <;> first | rfl | exact absurd rfl h

theorem frame_payments (h : ∀ st ∈ sts, st.table ≠ .payments) :
    (Store.applyAll sts db).payments = db.payments :=
  Store.applyAll_unchanged Db.payments fun st hst db => by
    have h := h st hst
    cases st <;> first | rfl | exact absurd rfl h

theorem frame_recoveryCases (h : ∀ st ∈ sts, st.table ≠ .recoveryCases) :
    (Store.applyAll sts db).recoveryCases = db.recoveryCases :=
  Store.applyAll_unchanged Db.recoveryCases fun st hst db => by
    have h := h st hst
    cases st <;> first | rfl | exact absurd rfl h

theorem frame_recoveryAttempts (h : ∀ st ∈ sts, st.table ≠ .recoveryAttempts) :
    (Store.applyAll sts db).recoveryAttempts = db.recoveryAttempts :=
  Store.applyAll_unchanged Db.recoveryAttempts fun st hst db => by
    have h := h st hst
    cases st <;> first | rfl | exact absurd rfl h

theorem frame_recoveryPaymentRequests (h : ∀ st ∈ sts, st.table ≠ .recoveryPaymentRequests) :
    (Store.applyAll sts db).recoveryPaymentRequests = db.recoveryPaymentRequests :=
  Store.applyAll_unchanged Db.recoveryPaymentRequests fun st hst db => by
    have h := h st hst
    cases st <;> first | rfl | exact absurd rfl h

theorem frame_processedWebhookEvents (h : ∀ st ∈ sts, st.table ≠ .processedWebhookEvents) :
    (Store.applyAll sts db).processedWebhookEvents = db.processedWebhookEvents :=
  Store.applyAll_unchanged Db.processedWebhookEvents fun st hst db => by
    have h := h st hst
    cases st <;> first | rfl | exact absurd rfl h

end Frames

end Stmt

end RecoverAI
