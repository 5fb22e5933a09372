import RecoverAI.Models.Statements
import Mathlib.Data.List.Nodup

/-!
# Unique columns

`Db.Distinct` is what the primary keys and the unique constraints of the schema
amount to: a value is held by one row at most. Any checked statement preserves it,
so it holds of the database whatever the services do, and a row that is found by one
unique column is the row that is found by another.
-/

namespace RecoverAI

open Interleave

/-- No value of a column is held by two rows. -/
def Unique {ρ α : Type} (t : Table ρ) (column : ρ → α) : Prop := (t.map column).Nodup

namespace Unique

variable {ρ α κ : Type} {t : Table ρ} {column : ρ → α} {r r' : ρ}

theorem nil : Unique ([] : Table ρ) column := List.nodup_nil

/-- A free value may be inserted. -/
theorem append (h : Unique t column) (hr : ∀ r' ∈ t, column r' ≠ column r) :
    Unique (t ++ [r]) column := by
  rw [Unique, List.map_append, List.map_singleton, List.nodup_append]
  refine ⟨h, List.nodup_singleton _, fun a ha b hb => ?_⟩
  obtain ⟨r', hr', rfl⟩ := List.mem_map.mp ha
  rw [List.mem_singleton.mp hb]
  exact hr r' hr'

theorem append_of_taken [DecidableEq α] (h : Unique t column)
    (hr : Stmt.taken t column (column r) = false) : Unique (t ++ [r]) column :=
  h.append fun r' hr' he => by
    have hnone := List.any_eq_false.mp hr r' hr'
    simp [he] at hnone

/-- Updates that keep the column keep it unique. -/
theorem update [Keyed ρ κ] [DecidableEq κ] {k : κ} {f : ρ → ρ} (h : Unique t column)
    (hf : ∀ r, column (f r) = column r) : Unique (t.update k f) column := by
  rw [Unique, Table.map_update column hf]
  exact h

/-- A value determines its row. -/
theorem eq_of_mem (h : Unique t column) (hr : r ∈ t) (hr' : r' ∈ t)
    (he : column r = column r') : r = r' :=
  List.inj_on_of_nodup_map h hr hr' he

/-- A row of the table is the row with its key. -/
theorem get?_of_mem [Keyed ρ κ] [DecidableEq κ] (h : Unique t (Keyed.key : ρ → κ)) (hr : r ∈ t) :
    t.get? (Keyed.key r) = some r := by
  obtain ⟨r', hr'⟩ := Option.isSome_iff_exists.mp (Table.get?_isSome_of_mem hr)
  rw [hr', h.eq_of_mem (Table.mem_of_get? hr') hr (Table.key_of_get? hr')]

/-- The row with a value is found by it. -/
theorem find?_of_mem [DecidableEq α] (h : Unique t column) (hr : r ∈ t) :
    t.find? (fun r' => column r' = column r) = some r := by
  cases hf : t.find? fun r' => column r' = column r with
  | none =>
    have hno := List.find?_eq_none.mp hf r hr
    simp at hno
  | some r' =>
    have he : column r' = column r := by simpa using List.find?_some hf
    rw [h.eq_of_mem (List.mem_of_find?_eq_some hf) hr he]

end Unique

/-- **The primary keys and unique constraints of the schema.** -/
structure Db.Distinct (db : Db) : Prop where
  customerId : Unique db.customers Customer.id
  paymentId : Unique db.payments Payment.id
  caseId : Unique db.recoveryCases RecoveryCase.id
  casePayment : Unique db.recoveryCases RecoveryCase.paymentId
  attemptId : Unique db.recoveryAttempts RecoveryAttempt.id
  linkId : Unique db.recoveryPaymentRequests RecoveryPaymentRequest.id
  linkAttempt : Unique db.recoveryPaymentRequests RecoveryPaymentRequest.recoveryAttemptId
  linkReference : Unique db.recoveryPaymentRequests RecoveryPaymentRequest.providerReference
  linkReferenceId : Unique db.recoveryPaymentRequests RecoveryPaymentRequest.referenceId
  dedupKey : Unique db.processedWebhookEvents ProcessedWebhookEvent.dedupKey

namespace Db.Distinct

variable {db : Db}

theorem empty : Db.empty.Distinct :=
  ⟨.nil, .nil, .nil, .nil, .nil, .nil, .nil, .nil, .nil, .nil⟩

/-- A key that finds no row is held by none. -/
private theorem key_ne_of_isSome {ρ : Type} [Keyed ρ Uuid] {t : Table ρ} {k : Uuid}
    (h : (t.get? k).isSome = false) : ∀ r ∈ t, Keyed.key r ≠ k := by
  rw [Option.isSome_eq_false_iff, Option.isNone_iff_eq_none] at h
  exact Table.get?_eq_none_iff.mp h

/-- **A checked statement keeps the unique columns unique.** -/
theorem apply {st : Stmt} (h : db.Distinct) (hc : st.check db = none) : (st.apply db).Distinct := by
  cases st with
  | insertCase r =>
    have htaken := Stmt.eq_false_of_unlessTaken hc
    rw [Bool.or_eq_false_iff] at htaken
    exact
      { h with
        caseId := h.caseId.append (key_ne_of_isSome htaken.1)
        casePayment := h.casePayment.append_of_taken htaken.2 }
  | updateCase b a =>
    exact
      { h with
        caseId := h.caseId.update fun _ => rfl
        casePayment := h.casePayment.update fun _ => rfl }
  | insertAttempt r =>
    have htaken := Stmt.eq_false_of_unlessTaken hc
    rw [Bool.or_eq_false_iff] at htaken
    exact { h with attemptId := h.attemptId.append (key_ne_of_isSome htaken.1) }
  | updateAttempt b a => exact { h with attemptId := h.attemptId.update fun _ => rfl }
  | insertPaymentRequest r =>
    have htaken := Stmt.eq_false_of_unlessTaken hc
    simp only [Bool.or_eq_false_iff] at htaken
    obtain ⟨⟨⟨hid, hattempt⟩, hreference⟩, hreferenceId⟩ := htaken
    exact
      { h with
        linkId := h.linkId.append (key_ne_of_isSome hid)
        linkAttempt := h.linkAttempt.append_of_taken hattempt
        linkReference := h.linkReference.append_of_taken hreference
        linkReferenceId := h.linkReferenceId.append_of_taken hreferenceId }
  | updatePaymentRequest b a =>
    exact
      { h with
        linkId := h.linkId.update fun _ => rfl
        linkAttempt := h.linkAttempt.update fun _ => rfl
        linkReference := h.linkReference.update fun _ => rfl
        linkReferenceId := h.linkReferenceId.update fun _ => rfl }
  | insertProcessedWebhookEvent r =>
    have htaken := Stmt.eq_false_of_unlessTaken hc
    rw [Bool.or_eq_false_iff] at htaken
    exact { h with dedupKey := h.dedupKey.append_of_taken htaken.2 }
  | insertCustomer r =>
    exact { h with
              customerId := h.customerId.append
                (key_ne_of_isSome (Stmt.eq_false_of_unlessTaken hc)) }
  | updateCustomer b a => exact { h with customerId := h.customerId.update fun _ => rfl }
  | insertPayment r =>
    exact { h with
              paymentId := h.paymentId.append
                (key_ne_of_isSome (Stmt.eq_false_of_unlessTaken hc)) }
  | insertAuditEvent r => exact { h with }

theorem applyAll {sts : List Stmt} (h : db.Distinct) (hc : Store.checkAll sts db = none) :
    (Store.applyAll sts db).Distinct :=
  Store.applyAll_invariant_of_checkAll (fun _ _ hst hdb => hdb.apply hst) hc h

end Db.Distinct

end RecoverAI
