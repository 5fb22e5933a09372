import RecoverAI.Domain.Enums
import Mathlib.Data.Rat.Defs
import Mathlib.Algebra.Order.Ring.Rat

/-!
# The policy engine

`app/domain/policy.py`: the pure function that allows or blocks a proposed
action, and the configuration it runs under (`app/core/config.py`,
`app/services/policy_service.py`). Confidences and thresholds are floats that are
only compared, so they are rationals here.
-/

namespace RecoverAI

def POLICY_VERSION : String := "v1"

/-- The statuses in which an action may be proposed. -/
def actionEligibleStatuses : RecoveryAction → List RecoveryCaseStatus
  | .retryPayment => [.recommended, .policyReview, .approved]
  | .sendPaymentLink => [.recommended, .policyReview, .approved]
  | .sendReminder => [.recommended, .policyReview, .approved]
  | .escalate => [.diagnosing, .recommended, .policyReview, .executing, .failed]
  | .stop => [.eligible, .recommended, .policyReview, .failed]

/-- The actions that contact the customer. -/
def contactActions : List RecoveryAction := [.sendPaymentLink, .sendReminder]

/-- The actions that pursue recovery, as opposed to `escalate` and `stop`. -/
def activeRecoveryActions : List RecoveryAction := [.retryPayment, .sendPaymentLink, .sendReminder]

def confidenceGatedActions : List RecoveryAction := activeRecoveryActions

/-- The actions the executor can carry out (`app/domain/providers/base.py`). -/
def EXECUTABLE_ACTIONS : List RecoveryAction := [.sendPaymentLink]

/-- The thresholds of the policy. -/
structure PolicyConfig where
  policyVersion : String
  maxRetryCount : Int
  maxRecoveryWindowDays : Int
  maxCustomerContacts : Int
  minConfidenceThreshold : ℚ
  highValueAmountThreshold : Int
  highValueMinConfidenceThreshold : ℚ
  maxRecoveryAmount : Int
  deriving DecidableEq, Repr, Inhabited

/-- The facts a decision is based on. -/
structure PolicyEvaluationInput where
  caseStatus : RecoveryCaseStatus
  proposedAction : RecoveryAction
  attemptNumber : Int
  daysSinceDiscovery : Int
  customerContactCount : Int
  recoveryConfidence : ℚ
  amount : Int
  deriving DecidableEq, Repr

structure PolicyDecision where
  decision : PolicyDecisionType
  reasonCodes : List PolicyReasonCode
  policyVersion : String
  deriving DecidableEq, Repr

/-- The confidence an amount asks for. -/
def PolicyConfig.confidenceThreshold (config : PolicyConfig) (amount : Int) : ℚ :=
  if amount ≥ config.highValueAmountThreshold then config.highValueMinConfidenceThreshold
  else config.minConfidenceThreshold

/-- All the rules an input violates, in the order in which they are checked. -/
def violatedRules (input : PolicyEvaluationInput) (config : PolicyConfig) :
    List PolicyReasonCode :=
  (if input.caseStatus ∈ terminalRecoveryCaseStatuses then [.terminalStateProtected] else []) ++
  (if input.caseStatus ∉ actionEligibleStatuses input.proposedAction then
    [.actionNotEligibleForStatus] else []) ++
  (if input.proposedAction = .retryPayment ∧ input.attemptNumber ≥ config.maxRetryCount then
    [.maxRetriesReached] else []) ++
  (if input.proposedAction ∈ activeRecoveryActions ∧
      input.daysSinceDiscovery > config.maxRecoveryWindowDays then
    [.recoveryWindowExpired] else []) ++
  (if input.proposedAction ∈ contactActions ∧
      input.customerContactCount ≥ config.maxCustomerContacts then
    [.maxContactsReached] else []) ++
  (if input.amount ≤ 0 ∨ input.amount > config.maxRecoveryAmount then
    [.amountOutOfBounds] else []) ++
  (if input.proposedAction ∈ confidenceGatedActions ∧
      input.recoveryConfidence < config.confidenceThreshold input.amount then
    [.confidenceBelowThreshold] else [])

/-- Evaluate a proposed action: any violated rule blocks it. -/
def evaluatePolicy (input : PolicyEvaluationInput) (config : PolicyConfig) : PolicyDecision where
  decision := if violatedRules input config = [] then .allow else .block
  reasonCodes := violatedRules input config
  policyVersion := config.policyVersion

/-! ### Configuration -/

/-- The settings the services read, with the bounds under which they load. -/
structure Settings where
  recoveryPaymentLinkExpiryHours : Int
  policyMaxRetryCount : Int
  policyMaxRecoveryWindowDays : Int
  policyMaxCustomerContacts : Int
  policyMinConfidenceThreshold : ℚ
  policyHighValueAmountThreshold : Int
  policyHighValueMinConfidenceThreshold : ℚ
  policyMaxRecoveryAmount : Int
  expiryHours_ge : 1 ≤ recoveryPaymentLinkExpiryHours
  maxRetryCount_ge : 0 ≤ policyMaxRetryCount
  maxRecoveryWindowDays_ge : 1 ≤ policyMaxRecoveryWindowDays
  maxCustomerContacts_ge : 0 ≤ policyMaxCustomerContacts
  minConfidenceThreshold_mem :
    0 ≤ policyMinConfidenceThreshold ∧ policyMinConfidenceThreshold ≤ 1
  highValueAmountThreshold_ge : 1 ≤ policyHighValueAmountThreshold
  highValueMinConfidenceThreshold_mem :
    0 ≤ policyHighValueMinConfidenceThreshold ∧ policyHighValueMinConfidenceThreshold ≤ 1
  maxRecoveryAmount_ge : 1 ≤ policyMaxRecoveryAmount
  deriving Repr

/-- The policy configuration of the settings; every threshold is wired through. -/
def getPolicyConfig (settings : Settings) : PolicyConfig where
  policyVersion := POLICY_VERSION
  maxRetryCount := settings.policyMaxRetryCount
  maxRecoveryWindowDays := settings.policyMaxRecoveryWindowDays
  maxCustomerContacts := settings.policyMaxCustomerContacts
  minConfidenceThreshold := settings.policyMinConfidenceThreshold
  highValueAmountThreshold := settings.policyHighValueAmountThreshold
  highValueMinConfidenceThreshold := settings.policyHighValueMinConfidenceThreshold
  maxRecoveryAmount := settings.policyMaxRecoveryAmount

/-! ### What an allowed action satisfies -/

variable {input : PolicyEvaluationInput} {config : PolicyConfig}

theorem evaluatePolicy_allow_iff :
    (evaluatePolicy input config).decision = .allow ↔ violatedRules input config = [] := by
  unfold evaluatePolicy
  by_cases h : violatedRules input config = [] <;> simp [h]

/-- Under review every action may be proposed. -/
theorem policyReview_mem_actionEligibleStatuses (action : RecoveryAction) :
    .policyReview ∈ actionEligibleStatuses action := by
  cases action with
  | _ => decide

/-- **What ALLOW means for a payment link.** -/
theorem evaluatePolicy_sendPaymentLink_iff (ha : input.proposedAction = .sendPaymentLink) :
    (evaluatePolicy input config).decision = .allow ↔
      input.caseStatus ∈ actionEligibleStatuses .sendPaymentLink ∧
      input.daysSinceDiscovery ≤ config.maxRecoveryWindowDays ∧
      input.customerContactCount < config.maxCustomerContacts ∧
      0 < input.amount ∧ input.amount ≤ config.maxRecoveryAmount ∧
      config.confidenceThreshold input.amount ≤ input.recoveryConfidence := by
  rw [evaluatePolicy_allow_iff]
  have hterm : input.caseStatus ∈ actionEligibleStatuses .sendPaymentLink →
      input.caseStatus ∉ terminalRecoveryCaseStatuses := by
    generalize input.caseStatus = st
    cases st <;> decide
  simp only [violatedRules, ha, List.append_eq_nil_iff, ite_eq_right_iff, List.cons_ne_nil, imp_false,
    activeRecoveryActions, contactActions, confidenceGatedActions, List.mem_cons, reduceCtorEq,
    false_or, true_or, or_true, true_and, false_and, not_false_eq_true, and_true,
    Classical.not_not, not_or, ge_iff_le, gt_iff_lt, not_lt, not_le]
  tauto

end RecoverAI
