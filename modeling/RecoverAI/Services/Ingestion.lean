import RecoverAI.Services.Common

/-!
# The ingestion service

`app/services/ingestion_service.py`: a reported payment becomes a `Payment` row,
and a failed one a recovery case in DISCOVERED, at once, on request, or in a sweep.
-/

namespace RecoverAI

open Interleave Service

/-- The look-up of `_find_or_create_customer`. -/
def findCustomer (externalReference : Option String) : Service (Option Customer) :=
  match truthy externalReference with
  | some reference => do scalarOneOrNone (← select (.customersByExternalReference reference))
  | none => pure none

/-- `_find_or_create_customer`. -/
def findOrCreateCustomer (externalReference : Option String) : Service Customer := do
  match ← findCustomer externalReference with
  | some customer => return customer
  | none =>
    let customer : Customer :=
      { id := ← uuid4
        externalReference
        totalPaymentsCount := 0
        totalFailedPaymentsCount := 0 }
    flush [.insertCustomer customer]
    return customer

/-- A case as it is opened for a payment. -/
def openedCase (id : Uuid) (payment : Payment) (createdAt : Time) : RecoveryCase where
  id := id
  paymentId := payment.id
  status := .discovered
  version := 1
  revenueAtRisk := payment.amount
  recoveredAmount := 0
  eligible := false
  diagnosisCategory := none
  diagnosisNotes := none
  recoveryConfidence := none
  recommendedAction := none
  currentAttemptNumber := 0
  customerContactCount := 0
  policyVersion := none
  createdAt := createdAt

/-- `_create_case`. -/
def createCase (payment : Payment) (correlationId : String) : Service RecoveryCase := do
  let recoveryCase := openedCase (← uuid4) payment (← now)
  flush [.insertCase recoveryCase]
  recordEvent (.recoveryCase recoveryCase.id)
    (.recoveryCaseCreated payment.id payment.amount "ingestion") .system correlationId []
  return recoveryCase

/-- `create_recovery_case_for_payment`. -/
def createRecoveryCaseForPayment (paymentId : Uuid) (correlationId : String) :
    Service RecoveryCaseCreatedResponse := do
  let some payment ← select (.payment paymentId)
    | raise (.notFound s!"Payment '{uuidText paymentId}' was not found.")
  if payment.status ≠ .failed then
    raise (.validationFailed (s!"Payment '{uuidText paymentId}' is '{payment.status.value}', not " ++
      "'failed' — only failed payments are eligible for a recovery case."))
  match ← select (.caseByPayment paymentId) with
  | some existing =>
    return {
      recoveryCaseId := existing.id
      paymentId
      status := existing.status
      revenueAtRisk := existing.revenueAtRisk
      created := false }
  | none =>
    let recoveryCase ← createCase payment correlationId
    commit
    return {
      recoveryCaseId := recoveryCase.id
      paymentId
      status := recoveryCase.status
      revenueAtRisk := recoveryCase.revenueAtRisk
      created := true }

/-- The counters of a customer after one more payment. -/
def Customer.countPayment (customer : Customer) (status : PaymentStatus) : Customer :=
  { customer with
    totalPaymentsCount := customer.totalPaymentsCount + 1
    totalFailedPaymentsCount :=
      if status = .failed then customer.totalFailedPaymentsCount + 1
      else customer.totalFailedPaymentsCount }

/-- The case an ingested payment is opened with, if it is. -/
def createCaseIfFailed (request : PaymentIngestRequest) (payment : Payment)
    (correlationId : String) : Service (Option RecoveryCase) :=
  if request.autoCreateCase ∧ request.status = .failed then
    some <$> createCase payment correlationId
  else pure none

/-- The part of `ingest_payment` for a payment that is not yet known. The currency is `str.upper`
of ASCII letters; other characters are kept as they are. -/
def ingestNewPayment (request : PaymentIngestRequest) (correlationId : String) :
    Service PaymentIngestResponse := do
  let customer ← findOrCreateCustomer request.customerReference
  let counted := customer.countPayment request.status
  let id ← uuid4
  let createdAt ← now
  let updatedAt ← now
  let payment : Payment :=
    { id
      customerId := customer.id
      amount := request.amount
      currency := request.currency.toUpper
      status := request.status
      paymentMethodType := request.paymentMethodType
      failureReason := request.failureReason
      attemptNumber := request.attemptNumber
      providerPaymentId := request.providerPaymentId
      createdAt
      updatedAt }
  flush [.updateCustomer customer counted, .insertPayment payment]
  recordEvent (.payment payment.id)
    (.paymentIngested payment.status payment.amount payment.currency request.failureReason)
    .system correlationId []
  let recoveryCase ← createCaseIfFailed request payment correlationId
  commit
  return {
    paymentId := payment.id
    customerId := customer.id
    recoveryCaseId := recoveryCase.map RecoveryCase.id
    recoveryCaseStatus := recoveryCase.map RecoveryCase.status
    deduplicated := false }

/-- `ingest_payment`. -/
def ingestPayment (request : PaymentIngestRequest) (correlationId : String) :
    Service PaymentIngestResponse := do
  match truthy request.providerPaymentId with
  | none => ingestNewPayment request correlationId
  | some providerPaymentId =>
    match ← select (.paymentByProviderPaymentId providerPaymentId) with
    | none => ingestNewPayment request correlationId
    | some existingPayment =>
      let existingCase ← select (.caseByPayment existingPayment.id)
      recordEvent (.payment existingPayment.id) (.paymentIngestDeduplicated providerPaymentId)
        .system correlationId []
      commit
      return {
        paymentId := existingPayment.id
        customerId := existingPayment.customerId
        recoveryCaseId := existingCase.map RecoveryCase.id
        recoveryCaseStatus := existingCase.map RecoveryCase.status
        deduplicated := true }

/-- The loop of `discover_failed_payments`: a case for every candidate. -/
def createCases (correlationId : String) : List Payment → Service (List Uuid)
  | [] => return []
  | payment :: payments => do
    let recoveryCase ← createCase payment correlationId
    let caseIds ← createCases correlationId payments
    return recoveryCase.id :: caseIds

/-- `discover_failed_payments`. -/
def discoverFailedPayments (limit : Nat) (correlationId : String) : Service DiscoveryReport := do
  let candidates ← select (.failedPaymentsWithoutCase limit)
  let alreadyTracked ← select .countFailedWithCase
  let caseIds ← createCases correlationId candidates
  commit
  return {
    scanned := candidates.length
    created := caseIds.length
    skippedExisting := alreadyTracked
    caseIds }

end RecoverAI
