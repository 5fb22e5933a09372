import Mathlib.Algebra.Order.Ring.Rat
import Mathlib.Data.Rat.Defs

/-!
# Synthetic cases

`evaluation/schemas/dataset_schema.py`, the data of the evaluation harness. The package is
kept apart from the backend, so it has enumerations of its own. A case holds the proofs of
the bounds under which it loads; rates and confidences are floats that are only compared,
so they are rationals here.
-/

namespace RecoverAI.Evaluation

inductive PaymentMethodType where
  | card | upi | netbanking | wallet | emi
  deriving DecidableEq, Repr

inductive FailureReason where
  | networkError | gatewayTimeout | providerError | insufficientFunds | expiredInstrument
  | authenticationFailed | unknown
  deriving DecidableEq, Repr

inductive ScenarioType where
  | temporaryFailure | repeatedFailure | customerSideFailure | highValue | previouslyContacted
  | ambiguous
  deriving DecidableEq, Repr

def ScenarioType.value : ScenarioType → String
  | .temporaryFailure => "temporary_failure"
  | .repeatedFailure => "repeated_failure"
  | .customerSideFailure => "customer_side_failure"
  | .highValue => "high_value"
  | .previouslyContacted => "previously_contacted"
  | .ambiguous => "ambiguous"

inductive RecoveryAction where
  | retryPayment | sendPaymentLink | sendReminder | escalate | stop
  deriving DecidableEq, Repr

def RecoveryAction.value : RecoveryAction → String
  | .retryPayment => "retry_payment"
  | .sendPaymentLink => "send_payment_link"
  | .sendReminder => "send_reminder"
  | .escalate => "escalate"
  | .stop => "stop"

/-- What a strategy is allowed to see. -/
structure SyntheticCaseInput where
  caseId : String
  scenarioType : ScenarioType
  amount : ℤ
  currency : String := "INR"
  paymentMethodType : PaymentMethodType
  failureReason : FailureReason
  attemptNumber : ℤ
  daysSinceFirstAttempt : ℤ
  previousContactCount : ℤ
  customerPaymentHistorySuccessRate : ℚ
  isHighValue : Bool
  amount_gt : 0 < amount
  attemptNumber_ge : 1 ≤ attemptNumber
  daysSinceFirstAttempt_ge : 0 ≤ daysSinceFirstAttempt
  previousContactCount_ge : 0 ≤ previousContactCount
  successRate_mem :
    0 ≤ customerPaymentHistorySuccessRate ∧ customerPaymentHistorySuccessRate ≤ 1
  deriving Repr

/-- The count of a customer that has not been contacted. -/
theorem noContact_ge : (0 : ℤ) ≤ 0 := Int.le_refl 0

/-- The label a strategy is scored against. -/
structure GroundTruth where
  expectedAction : RecoveryAction
  recoverable : Bool
  rationale : String
  deriving DecidableEq, Repr

structure SyntheticCase where
  input : SyntheticCaseInput
  groundTruth : GroundTruth
  deriving Repr

/-- The decision of a strategy (`evaluation/baseline/rule_based.py`). -/
structure BaselineDecision where
  action : RecoveryAction
  confidence : ℚ
  rationale : String
  deriving DecidableEq, Repr

/-- `zip(cases, decisions, strict=True)`; lists of different lengths are a `ValueError`. -/
def zipStrict {α β : Type} (cases : List α) (decisions : List β) : Option (List (α × β)) :=
  if cases.length = decisions.length then some (cases.zip decisions) else none

theorem zipStrict_of_length_eq {α β : Type} {cases : List α} {decisions : List β}
    (h : cases.length = decisions.length) : zipStrict cases decisions = some (cases.zip decisions) :=
  if_pos h

end RecoverAI.Evaluation
