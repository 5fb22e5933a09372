import RecoverAI.Models.Evolution
import RecoverAI.Models.Integrity
import Mathlib.Data.List.Sort

/-!
# Queries

The selects of the repositories (`app/repositories`) and of the services. A query
is evaluated on what the session sees. Where the source orders rows by their
creation time, rows of equal time come in any order: the environment settles it
with a ranking.
-/

namespace RecoverAI

open Interleave

/-- A case with what `get_for_diagnosis` loads eagerly. -/
structure CaseForDiagnosis where
  recoveryCase : RecoveryCase
  payment : Payment
  customer : Customer
  attempts : List RecoveryAttempt
  deriving DecidableEq, Repr

/-- A case with what `get_for_execution` loads eagerly and a service goes on to
use. -/
structure CaseForExecution where
  recoveryCase : RecoveryCase
  payment : Payment
  attempts : List RecoveryAttempt
  deriving DecidableEq, Repr

inductive Query where
  /-- `RecoveryCaseRepository.get_for_diagnosis`. -/
  | caseForDiagnosis (caseId : Uuid)
  /-- `RecoveryCaseRepository.get_for_execution`. -/
  | caseForExecution (caseId : Uuid)
  /-- `RecoveryCaseRepository.get`. -/
  | recoveryCase (caseId : Uuid)
  /-- `RecoveryCaseRepository.list_paginated` from offset 0. -/
  | casesByStatus (status : RecoveryCaseStatus) (limit : Nat)
  | caseByPayment (paymentId : Uuid)
  /-- `PaymentRepository.get`. -/
  | payment (paymentId : Uuid)
  | paymentByProviderPaymentId (providerPaymentId : String)
  | failedPaymentsWithoutCase (limit : Nat)
  | countFailedWithCase
  | customersByExternalReference (externalReference : String)
  | attempt (attemptId : Uuid)
  | paymentRequestByProviderReference (providerReference : String)
  | processedWebhookEvent (dedupKey : String)
  deriving DecidableEq, Repr

/-- What a query returns. -/
abbrev Query.Result : Query → Type
  | .caseForDiagnosis _ => Option CaseForDiagnosis
  | .caseForExecution _ => Option CaseForExecution
  | .recoveryCase _ => Option RecoveryCase
  | .casesByStatus _ _ => List RecoveryCase
  | .caseByPayment _ => Option RecoveryCase
  | .payment _ => Option Payment
  | .paymentByProviderPaymentId _ => Option Payment
  | .failedPaymentsWithoutCase _ => List Payment
  | .countFailedWithCase => Nat
  | .customersByExternalReference _ => List Customer
  | .attempt _ => Option RecoveryAttempt
  | .paymentRequestByProviderReference _ => Option RecoveryPaymentRequest
  | .processedWebhookEvent _ => Option ProcessedWebhookEvent

/-- Rows by time, rows of equal time by their place in the ranking. -/
def orderedBy {ρ : Type} [Keyed ρ Uuid] (time : ρ → Time) (ranking : List Uuid)
    (rows : List ρ) : List ρ :=
  rows.insertionSort fun a b => time a < time b ∨
    (time a = time b ∧ ranking.idxOf (Keyed.key a) ≤ ranking.idxOf (Keyed.key b))

namespace Db

/-- The attempts of a case, oldest first. -/
def attemptsOf (db : Db) (ranking : List Uuid) (caseId : Uuid) : List RecoveryAttempt :=
  orderedBy RecoveryAttempt.createdAt ranking
    (db.recoveryAttempts.filter fun a => a.recoveryCaseId = caseId)

def caseForDiagnosis (db : Db) (ranking : List Uuid) (caseId : Uuid) :
    Option CaseForDiagnosis := do
  let recoveryCase ← db.recoveryCases.get? caseId
  let payment ← db.payments.get? recoveryCase.paymentId
  let customer ← db.customers.get? payment.customerId
  return { recoveryCase, payment, customer, attempts := db.attemptsOf ranking caseId }

def caseForExecution (db : Db) (ranking : List Uuid) (caseId : Uuid) :
    Option CaseForExecution := do
  let recoveryCase ← db.recoveryCases.get? caseId
  let payment ← db.payments.get? recoveryCase.paymentId
  return { recoveryCase, payment, attempts := db.attemptsOf ranking caseId }

/-- A failed payment without a recovery case. -/
def uncased (db : Db) (p : Payment) : Bool :=
  p.status = .failed ∧ !Stmt.taken db.recoveryCases RecoveryCase.paymentId p.id

end Db

/-- The answer of a query. -/
def Query.eval (db : Db) (ranking : List Uuid) : (q : Query) → q.Result
  | .caseForDiagnosis caseId => db.caseForDiagnosis ranking caseId
  | .caseForExecution caseId => db.caseForExecution ranking caseId
  | .recoveryCase caseId => db.recoveryCases.get? caseId
  | .casesByStatus status limit =>
    (orderedBy (fun r => -r.createdAt) ranking
      (db.recoveryCases.filter fun r => r.status = status)).take limit
  | .caseByPayment paymentId => db.recoveryCases.find? fun r => r.paymentId = paymentId
  | .payment paymentId => db.payments.get? paymentId
  | .paymentByProviderPaymentId providerPaymentId =>
    (orderedBy Payment.createdAt ranking
      (db.payments.filter fun p => p.providerPaymentId = some providerPaymentId)).head?
  | .failedPaymentsWithoutCase limit =>
    (orderedBy Payment.createdAt ranking (db.payments.filter db.uncased)).take limit
  | .countFailedWithCase =>
    (db.payments.filter fun p => p.status = .failed ∧ !db.uncased p).length
  | .customersByExternalReference externalReference =>
    db.customers.filter fun c => c.externalReference = some externalReference
  | .attempt attemptId => db.recoveryAttempts.get? attemptId
  | .paymentRequestByProviderReference providerReference =>
    db.recoveryPaymentRequests.find? fun l => l.providerReference = providerReference
  | .processedWebhookEvent dedupKey =>
    db.processedWebhookEvents.find? fun e => e.dedupKey = dedupKey

end RecoverAI
