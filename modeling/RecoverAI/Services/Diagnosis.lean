import RecoverAI.Services.Common

/-!
# The diagnosis service

`app/services/diagnosis_service.py`: one transaction that walks a case from
DISCOVERED, ELIGIBLE or FAILED through the recommendation of the AI and the policy
engine to APPROVED, STOPPED or ESCALATED, or to INELIGIBLE at the door.
-/

namespace RecoverAI

open Interleave Service

/-- `_DIAGNOSABLE_STATUSES`. -/
def diagnosableStatuses : List RecoveryCaseStatus := [.discovered, .eligible, .failed]

/-- `_HARD_STOP_REASON_CODES`: the reasons to stop a case rather than escalate it. -/
def hardStopReasonCodes : List PolicyReasonCode :=
  [.maxRetriesReached, .recoveryWindowExpired, .maxContactsReached, .amountOutOfBounds,
    .terminalStateProtected]

/-- `build_context` (`app/ai/context.py`). -/
def buildContext (payment : Payment) (customer : Customer)
    (previousAttempts : List RecoveryAttempt) (referenceTime : Time) : PaymentRecoveryContext where
  paymentId := uuidText payment.id
  amount := payment.amount
  currency := payment.currency
  failureReason := payment.failureReason.getD .unknown
  paymentMethod := payment.paymentMethodType
  attemptNumber := payment.attemptNumber
  customerPaymentHistory :=
    { successfulPayments :=
        max 0 (customer.totalPaymentsCount - customer.totalFailedPaymentsCount)
      failedPayments := customer.totalFailedPaymentsCount }
  previousRecoveryActions := previousAttempts.map fun attempt =>
    { action := attempt.action, status := attempt.status, createdAt := attempt.createdAt }
  timeSinceFailureMinutes := max 0 ((referenceTime - payment.updatedAt) / 60_000_000)

/-- `_resolve_next_status`: the next status, and the reason given for it. -/
def resolveNextStatus (action : RecoveryAction) (decision : PolicyDecisionType)
    (reasonCodes : List PolicyReasonCode) : RecoveryCaseStatus × Option String :=
  match decision with
  | .allow =>
    if action = .stop then (.stopped, none)
    else if action = .escalate then (.escalated, none)
    else if action ∉ EXECUTABLE_ACTIONS then
      (.escalated, some (s!"Action '{action.value}' is permitted by policy but has no executor " ++
        "implementation; routing to human review instead of APPROVED."))
    else (.approved, none)
  | .block =>
    if reasonCodes.any (hardStopReasonCodes.contains ·) then (.stopped, none)
    else (.escalated, none)

/-- `_evaluate_eligibility`. -/
def evaluateEligibility (recoveryCase : RecoveryCase) (payment : Payment)
    (correlationId : String) : Service RecoveryCase :=
  let eligible : Bool := payment.status = .failed ∧ payment.amount > 0
  transition recoveryCase { recoveryCase with eligible }
    (if eligible then .eligible else .ineligible) correlationId
    (if eligible then none
      else some "Payment is not in a failed state, or has a non-positive amount.") []

/-- What a diagnosis attributes its AI events to. -/
def AIOutcome.actorType (outcome : AIOutcome) : ActorType :=
  if outcome.decisionSource = .ai then .ai else .system

/-- The policy input of a diagnosis. -/
def diagnosisPolicyInput (recoveryCase : RecoveryCase) (payment : Payment)
    (recommendation : RecoveryRecommendation) (now : Time) : PolicyEvaluationInput where
  caseStatus := recoveryCase.status
  proposedAction := recommendation.recommendedAction
  attemptNumber := recoveryCase.currentAttemptNumber
  daysSinceDiscovery := wholeDays (now - recoveryCase.createdAt)
  customerContactCount := recoveryCase.customerContactCount
  recoveryConfidence := recommendation.recoveryConfidence
  amount := payment.amount

/-- `policy_config or get_policy_config()`. -/
def policyConfigOrSettings : Option PolicyConfig → Service PolicyConfig
  | some config => return config
  | none => readPolicyConfig

/-- The last part of a diagnosis: the policy decision on a recommendation, and the
status it leads to. -/
def reviewRecommendation (recoveryCase : RecoveryCase) (payment : Payment) (outcome : AIOutcome)
    (correlationId : String) (policyConfig : Option PolicyConfig) : Service DiagnosisResponse := do
  let recommendation := outcome.recommendation
  let config ← policyConfigOrSettings policyConfig
  let decision := evaluatePolicy
    (diagnosisPolicyInput recoveryCase payment recommendation (← now)) config
  let before := recoveryCase
  let recoveryCase := { recoveryCase with policyVersion := some decision.policyVersion }
  recordEvent (.recoveryCase recoveryCase.id)
    (.policyEvaluated decision.decision decision.reasonCodes decision.policyVersion
      recommendation.recommendedAction)
    .policyEngine correlationId (before.pendingUpdate recoveryCase)
  let recoveryCase := before.flushed recoveryCase
  let (nextStatus, transitionReason) := resolveNextStatus recommendation.recommendedAction
    decision.decision decision.reasonCodes
  let recoveryCase ← transition recoveryCase recoveryCase nextStatus correlationId
    transitionReason []
  commit
  return {
    recoveryCaseId := recoveryCase.id
    caseStatus := recoveryCase.status
    decisionSource := some outcome.decisionSource
    diagnosisCategory := some recommendation.diagnosisCategory
    recoveryConfidence := some recommendation.recoveryConfidence
    recommendedAction := some recommendation.recommendedAction
    decisionExplanation := some recommendation.decisionExplanation
    policyDecision := some decision.decision
    policyReasonCodes := decision.reasonCodes
    policyVersion := some decision.policyVersion
    aiModel := outcome.model
    aiPromptVersion := some outcome.promptVersion }

/-- The columns a recommendation is stored in. -/
def RecoveryCase.withRecommendation (recoveryCase : RecoveryCase)
    (recommendation : RecoveryRecommendation) : RecoveryCase :=
  { recoveryCase with
    diagnosisCategory := some recommendation.diagnosisCategory
    diagnosisNotes := some recommendation.decisionExplanation
    recoveryConfidence := some recommendation.recoveryConfidence
    recommendedAction := some recommendation.recommendedAction }

/-- `ai_service.get_recommendation(context)`. -/
def getRecommendation (context : PaymentRecoveryContext) : Service AIOutcome := do
  match ← perform (.getRecommendation context) with
  | .ok outcome => return outcome
  | .error e => throw e

/-- The middle part of a diagnosis: the recommendation for an eligible case. -/
def diagnoseEligible (loaded : CaseForDiagnosis) (recoveryCase : RecoveryCase)
    (correlationId : String) (policyConfig : Option PolicyConfig) : Service DiagnosisResponse := do
  let recoveryCase ← transition recoveryCase recoveryCase .diagnosing correlationId none []
  let context := buildContext loaded.payment loaded.customer loaded.attempts (← now)
  let outcome ← getRecommendation context
  let recommendation := outcome.recommendation
  recordEvent (.recoveryCase recoveryCase.id)
    (.aiDiagnosisCreated outcome.decisionSource recommendation.diagnosisCategory outcome.model
      outcome.promptVersion outcome.retryCount outcome.failureCode outcome.failureMessage)
    outcome.actorType correlationId []
  recordEvent (.recoveryCase recoveryCase.id)
    (.recoveryRecommendationCreated recommendation.recommendedAction
      recommendation.recoveryConfidence recommendation.decisionExplanation)
    outcome.actorType correlationId []
  let recoveryCase ← transition recoveryCase (recoveryCase.withRecommendation recommendation)
    .recommended correlationId none []
  let recoveryCase ← transition recoveryCase recoveryCase .policyReview correlationId none []
  reviewRecommendation recoveryCase loaded.payment outcome correlationId policyConfig

/-- `_diagnose_recovery_case`. -/
def diagnoseRecoveryCaseBody (caseId : Uuid) (correlationId : String)
    (policyConfig : Option PolicyConfig) : Service DiagnosisResponse := do
  let some loaded ← select (.caseForDiagnosis caseId)
    | raise (.notFound s!"Recovery case '{uuidText caseId}' was not found.")
  let recoveryCase := loaded.recoveryCase
  if recoveryCase.status ∉ diagnosableStatuses then
    ofExcept (validateTransition recoveryCase.status .diagnosing)
  recordEvent (.recoveryCase recoveryCase.id) (.diagnosisRequested recoveryCase.status) .system
    correlationId []
  if recoveryCase.status = .discovered then
    let recoveryCase ← evaluateEligibility recoveryCase loaded.payment correlationId
    if recoveryCase.status = .ineligible then
      commit
      return {
        recoveryCaseId := recoveryCase.id
        caseStatus := recoveryCase.status
        decisionSource := none
        diagnosisCategory := none
        recoveryConfidence := none
        recommendedAction := none
        decisionExplanation := none
        policyDecision := none
        policyReasonCodes := []
        policyVersion := none
        aiModel := none
        aiPromptVersion := none }
    else
      diagnoseEligible loaded recoveryCase correlationId policyConfig
  else
    diagnoseEligible loaded recoveryCase correlationId policyConfig

/-- `diagnose_recovery_case`. -/
def diagnoseRecoveryCase (caseId : Uuid) (correlationId : String)
    (policyConfig : Option PolicyConfig) : Service DiagnosisResponse :=
  guardAgainstConcurrentModification (diagnoseRecoveryCaseBody caseId correlationId policyConfig)

end RecoverAI
