import RecoverAI.Evaluation.Schema
import RecoverAI.Framework.Padding
import RecoverAI.Framework.Random
import RecoverAI.Framework.Rounding

/-!
# Scenario generators

`evaluation/generators/scenarios.py`: six generators of synthetic cases, one for each scenario.
Whatever they draw, a case is named after its scenario and its index, and only a case that is
to be retried or sent a link is recoverable (`Generated`).
-/

namespace RecoverAI.Evaluation

open Python

namespace Scenarios

def highValueAmountThreshold : ℤ := 500_000

def moderateAmountRange : ℤ × ℤ := (5_000, 150_000)

def highAmountRange : ℤ × ℤ := (500_000, 3_000_000)

def temporaryFailureReasons : List FailureReason := [.networkError, .gatewayTimeout, .providerError]

def customerSideFailureReasons : List FailureReason :=
  [.insufficientFunds, .expiredInstrument, .authenticationFailed]

/-- `list(PaymentMethodType)` -/
def paymentMethodTypes : List PaymentMethodType := [.card, .upi, .netbanking, .wallet, .emi]

end Scenarios

open Scenarios

/-- `_case_id` -/
def caseId (scenario : ScenarioType) (index : ℕ) : String :=
  nameWithNumber 4 scenario.value index

/-- `low, high = …` in `_amount` -/
def amountRange (highValue : Bool) : ℤ × ℤ :=
  if highValue then highAmountRange else moderateAmountRange

/-- An amount that is drawn from one of the ranges. -/
abbrev DrawnAmount (highValue : Bool) :=
  { n : ℤ // (amountRange highValue).1 ≤ (amountRange highValue).2 →
    (amountRange highValue).1 ≤ n ∧ n ≤ (amountRange highValue).2 }

theorem DrawnAmount.pos {highValue : Bool} (amount : DrawnAmount highValue) : 0 < amount.1 := by
  cases highValue with
  | true =>
    obtain ⟨hlow, -⟩ := amount.2 (by decide)
    exact lt_of_lt_of_le (by decide) hlow
  | false =>
    obtain ⟨hlow, -⟩ := amount.2 (by decide)
    exact lt_of_lt_of_le (by decide) hlow

/-- What is drawn from a range is no less than what the range is no less than. -/
theorem le_of_randint {a b low : ℤ} (h : low ≤ a ∧ a ≤ b) (n : { n : ℤ // a ≤ b → a ≤ n ∧ n ≤ b }) :
    low ≤ n.1 :=
  h.1.trans (n.2 h.2).1

section Generators

variable (R : Random)

/-- `_amount` -/
def drawAmount (highValue : Bool) : StateM R.State (DrawnAmount highValue) :=
  R.randint (amountRange highValue).1 (amountRange highValue).2

/-- `_method` -/
def drawMethod : StateM R.State PaymentMethodType := do
  return (← R.choice paymentMethodTypes (List.cons_ne_nil _ _)).1

def drawReason (reasons : List FailureReason) (nonempty : reasons ≠ []) :
    StateM R.State FailureReason := do
  return (← R.choice reasons nonempty).1

/-- `round(rng.uniform(low, high), 2)` -/
def drawRate (low high : ℚ) (h : 0 ≤ low ∧ low ≤ high ∧ high ≤ 1) :
    StateM R.State { x : ℚ // 0 ≤ x ∧ x ≤ 1 } := do
  let x ← R.uniform low high
  return ⟨roundTo 2 x.1,
    roundTo_mem ⟨h.1.trans (x.2 h.2.1).1, (x.2 h.2.1).2.trans h.2.2⟩⟩

def generateTemporaryFailure (index : ℕ) : StateM R.State SyntheticCase := do
  let attemptNumber ← R.randint 1 2
  let daysElapsed ← R.randint 0 2
  let amount ← drawAmount R false
  let method ← drawMethod R
  let failureReason ← drawReason R temporaryFailureReasons (List.cons_ne_nil _ _)
  let successRate ← drawRate R (6 / 10) (95 / 100) (by decide +kernel)
  let input : SyntheticCaseInput := {
    caseId := caseId .temporaryFailure index
    scenarioType := .temporaryFailure
    amount := amount.1
    paymentMethodType := method
    failureReason := failureReason
    attemptNumber := attemptNumber.1
    daysSinceFirstAttempt := daysElapsed.1
    previousContactCount := 0
    customerPaymentHistorySuccessRate := successRate.1
    isHighValue := amount.1 ≥ Scenarios.highValueAmountThreshold
    amount_gt := amount.pos
    attemptNumber_ge := le_of_randint (by decide) attemptNumber
    daysSinceFirstAttempt_ge := le_of_randint (by decide) daysElapsed
    previousContactCount_ge := noContact_ge
    successRate_mem := successRate.2 }
  return ⟨input, {
    expectedAction := .retryPayment
    recoverable := true
    rationale := "Transient gateway/network failure with few prior attempts is typically " ++
      "recoverable via retry." }⟩

/-- The action for a payment that has failed often. -/
def repeatedFailureTruth (successRate : ℚ) : GroundTruth :=
  if successRate < 15 / 100 then
    { expectedAction := .stop
      recoverable := false
      rationale := "Retry limit effectively exhausted with very low recovery likelihood; " ++
        "stop further automation." }
  else
    { expectedAction := .escalate
      recoverable := false
      rationale := "Multiple failures but non-trivial recovery signal; escalate for human " ++
        "judgment rather than retry." }

def generateRepeatedFailure (index : ℕ) : StateM R.State SyntheticCase := do
  let attemptNumber ← R.randint 3 6
  let daysElapsed ← R.randint 7 20
  let amount ← drawAmount R false
  let successRate ← drawRate R (5 / 100) (35 / 100) (by decide +kernel)
  let method ← drawMethod R
  let failureReason ← drawReason R (temporaryFailureReasons ++ customerSideFailureReasons)
    (List.cons_ne_nil _ _)
  let contacts ← R.randint 1 2
  let input : SyntheticCaseInput := {
    caseId := caseId .repeatedFailure index
    scenarioType := .repeatedFailure
    amount := amount.1
    paymentMethodType := method
    failureReason := failureReason
    attemptNumber := attemptNumber.1
    daysSinceFirstAttempt := daysElapsed.1
    previousContactCount := min attemptNumber.1 contacts.1
    customerPaymentHistorySuccessRate := successRate.1
    isHighValue := amount.1 ≥ Scenarios.highValueAmountThreshold
    amount_gt := amount.pos
    attemptNumber_ge := le_of_randint (by decide) attemptNumber
    daysSinceFirstAttempt_ge := le_of_randint (by decide) daysElapsed
    previousContactCount_ge :=
      le_min (le_of_randint (by decide) attemptNumber) (le_of_randint (by decide) contacts)
    successRate_mem := successRate.2 }
  return ⟨input, repeatedFailureTruth successRate.1⟩

def generateCustomerSideFailure (index : ℕ) : StateM R.State SyntheticCase := do
  let attemptNumber ← R.randint 1 2
  let amount ← drawAmount R false
  let method ← drawMethod R
  let failureReason ← drawReason R customerSideFailureReasons (List.cons_ne_nil _ _)
  let days ← R.randint 0 3
  let contacts ← R.randint 0 1
  let successRate ← drawRate R (5 / 10) (9 / 10) (by decide +kernel)
  let input : SyntheticCaseInput := {
    caseId := caseId .customerSideFailure index
    scenarioType := .customerSideFailure
    amount := amount.1
    paymentMethodType := method
    failureReason := failureReason
    attemptNumber := attemptNumber.1
    daysSinceFirstAttempt := days.1
    previousContactCount := contacts.1
    customerPaymentHistorySuccessRate := successRate.1
    isHighValue := amount.1 ≥ Scenarios.highValueAmountThreshold
    amount_gt := amount.pos
    attemptNumber_ge := le_of_randint (by decide) attemptNumber
    daysSinceFirstAttempt_ge := le_of_randint (by decide) days
    previousContactCount_ge := le_of_randint (by decide) contacts
    successRate_mem := successRate.2 }
  return ⟨input, {
    expectedAction := .sendPaymentLink
    recoverable := true
    rationale := "Instrument-side failure (funds/expiry/auth) won't be fixed by an identical " ++
      "retry; offer a payment link so the customer can use a different instrument." }⟩

def generateHighValue (index : ℕ) : StateM R.State SyntheticCase := do
  let attemptNumber ← R.randint 1 2
  let amount ← drawAmount R true
  let failureReason ← drawReason R (temporaryFailureReasons ++ customerSideFailureReasons)
    (List.cons_ne_nil _ _)
  let method ← drawMethod R
  let days ← R.randint 0 3
  let successRate ← drawRate R (55 / 100) (95 / 100) (by decide +kernel)
  let input : SyntheticCaseInput := {
    caseId := caseId .highValue index
    scenarioType := .highValue
    amount := amount.1
    paymentMethodType := method
    failureReason := failureReason
    attemptNumber := attemptNumber.1
    daysSinceFirstAttempt := days.1
    previousContactCount := 0
    customerPaymentHistorySuccessRate := successRate.1
    isHighValue := true
    amount_gt := amount.pos
    attemptNumber_ge := le_of_randint (by decide) attemptNumber
    daysSinceFirstAttempt_ge := le_of_randint (by decide) days
    previousContactCount_ge := noContact_ge
    successRate_mem := successRate.2 }
  return ⟨input, {
    expectedAction :=
      if failureReason ∈ temporaryFailureReasons then .retryPayment else .sendPaymentLink
    recoverable := true
    rationale := "High-value payment: the underlying cause still points to a normal recovery " ++
      "action, but policy must apply a stricter confidence bar before acting." }⟩

def generatePreviouslyContacted (index : ℕ) : StateM R.State SyntheticCase := do
  let attemptNumber ← R.randint 2 4
  let amount ← drawAmount R false
  let method ← drawMethod R
  let failureReason ← drawReason R (customerSideFailureReasons ++ temporaryFailureReasons)
    (List.cons_ne_nil _ _)
  let days ← R.randint 5 14
  let contacts ← R.randint 2 3
  let successRate ← drawRate R (3 / 10) (7 / 10) (by decide +kernel)
  let input : SyntheticCaseInput := {
    caseId := caseId .previouslyContacted index
    scenarioType := .previouslyContacted
    amount := amount.1
    paymentMethodType := method
    failureReason := failureReason
    attemptNumber := attemptNumber.1
    daysSinceFirstAttempt := days.1
    previousContactCount := contacts.1
    customerPaymentHistorySuccessRate := successRate.1
    isHighValue := amount.1 ≥ Scenarios.highValueAmountThreshold
    amount_gt := amount.pos
    attemptNumber_ge := le_of_randint (by decide) attemptNumber
    daysSinceFirstAttempt_ge := le_of_randint (by decide) days
    previousContactCount_ge := le_of_randint (by decide) contacts
    successRate_mem := successRate.2 }
  return ⟨input, {
    expectedAction := .stop
    recoverable := false
    rationale := "Customer contact cap already reached; further reminders/links would violate " ++
      "contact limits." }⟩

def generateAmbiguous (index : ℕ) : StateM R.State SyntheticCase := do
  let attemptNumber ← R.randint 1 3
  let amount ← drawAmount R ((← R.random).1 < 15 / 100)
  let method ← drawMethod R
  let days ← R.randint 1 10
  let contacts ← R.randint 0 1
  let successRate ← drawRate R (4 / 10) (6 / 10) (by decide +kernel)
  let input : SyntheticCaseInput := {
    caseId := caseId .ambiguous index
    scenarioType := .ambiguous
    amount := amount.1
    paymentMethodType := method
    failureReason := .unknown
    attemptNumber := attemptNumber.1
    daysSinceFirstAttempt := days.1
    previousContactCount := contacts.1
    customerPaymentHistorySuccessRate := successRate.1
    isHighValue := amount.1 ≥ Scenarios.highValueAmountThreshold
    amount_gt := amount.pos
    attemptNumber_ge := le_of_randint (by decide) attemptNumber
    daysSinceFirstAttempt_ge := le_of_randint (by decide) days
    previousContactCount_ge := le_of_randint (by decide) contacts
    successRate_mem := successRate.2 }
  return ⟨input, {
    expectedAction := .escalate
    recoverable := false
    rationale := "Failure cause is unknown and signals are inconclusive; escalate rather than " ++
      "automate blindly." }⟩

/-- `SCENARIO_GENERATORS` -/
def scenarioGenerators : ScenarioType → ℕ → StateM R.State SyntheticCase
  | .temporaryFailure => generateTemporaryFailure R
  | .repeatedFailure => generateRepeatedFailure R
  | .customerSideFailure => generateCustomerSideFailure R
  | .highValue => generateHighValue R
  | .previouslyContacted => generatePreviouslyContacted R
  | .ambiguous => generateAmbiguous R

end Generators

/-! ### What is generated -/

/-- A case of a scenario, under its index. It is recoverable only if it is to be retried or sent a
link. -/
structure Generated (scenario : ScenarioType) (index : ℕ) (c : SyntheticCase) : Prop where
  caseId : c.input.caseId = caseId scenario index
  scenarioType : c.input.scenarioType = scenario
  pursued : c.groundTruth.recoverable = true →
    c.groundTruth.expectedAction = .retryPayment ∨ c.groundTruth.expectedAction = .sendPaymentLink

section Outcomes

variable {R : Random} {index : ℕ}

theorem generateTemporaryFailure_generated :
    Always (generateTemporaryFailure R index) (Generated .temporaryFailure index) := by
  refine .draw fun attemptNumber => .draw fun daysElapsed => .draw fun amount => ?_
  refine .draw fun method => .draw fun failureReason => .draw fun successRate => .pure ?_
  exact ⟨rfl, rfl, fun _ => .inl rfl⟩

theorem generateRepeatedFailure_generated :
    Always (generateRepeatedFailure R index) (Generated .repeatedFailure index) := by
  refine .draw fun attemptNumber => .draw fun daysElapsed => .draw fun amount => ?_
  refine .draw fun successRate => .draw fun method => .draw fun failureReason => ?_
  refine .draw fun contacts => .pure ⟨rfl, rfl, fun hrecoverable => ?_⟩
  -- neither way to go on is a recovery
  have hnot : (repeatedFailureTruth successRate.1).recoverable = false := by
    unfold repeatedFailureTruth
    split
    · rfl
    · rfl
  rw [hnot] at hrecoverable
  cases hrecoverable

theorem generateCustomerSideFailure_generated :
    Always (generateCustomerSideFailure R index) (Generated .customerSideFailure index) := by
  refine .draw fun attemptNumber => .draw fun amount => .draw fun method => ?_
  refine .draw fun failureReason => .draw fun days => .draw fun contacts => ?_
  exact .draw fun successRate => .pure ⟨rfl, rfl, fun _ => .inr rfl⟩

theorem generateHighValue_generated :
    Always (generateHighValue R index) (Generated .highValue index) := by
  refine .draw fun attemptNumber => .draw fun amount => .draw fun failureReason => ?_
  refine .draw fun method => .draw fun days => .draw fun successRate => .pure ?_
  exact ⟨rfl, rfl, fun _ => ite_eq_or_eq _ _ _⟩

theorem generatePreviouslyContacted_generated :
    Always (generatePreviouslyContacted R index) (Generated .previouslyContacted index) := by
  refine .draw fun attemptNumber => .draw fun amount => .draw fun method => ?_
  refine .draw fun failureReason => .draw fun days => .draw fun contacts => ?_
  exact .draw fun successRate => .pure ⟨rfl, rfl, fun hrecoverable => by cases hrecoverable⟩

theorem generateAmbiguous_generated :
    Always (generateAmbiguous R index) (Generated .ambiguous index) := by
  refine .draw fun attemptNumber => .draw fun chance => .draw fun amount => ?_
  refine .draw fun method => .draw fun days => .draw fun contacts => ?_
  exact .draw fun successRate => .pure ⟨rfl, rfl, fun hrecoverable => by cases hrecoverable⟩

/-- Whatever is drawn, the generator of a scenario keeps to it. -/
theorem scenarioGenerators_generated (scenario : ScenarioType) (index : ℕ) :
    Always (scenarioGenerators R scenario index) (Generated scenario index) := by
  cases scenario with
  | temporaryFailure => exact generateTemporaryFailure_generated
  | repeatedFailure => exact generateRepeatedFailure_generated
  | customerSideFailure => exact generateCustomerSideFailure_generated
  | highValue => exact generateHighValue_generated
  | previouslyContacted => exact generatePreviouslyContacted_generated
  | ambiguous => exact generateAmbiguous_generated

end Outcomes

/-! ### Names of cases -/

theorem ScenarioType.value_injective : Function.Injective ScenarioType.value := by
  intro a b h
  cases a <;> cases b <;> first | rfl | exact absurd h (by decide)

/-- A case is named by its scenario and its index, past the width of the padding too. -/
theorem caseId_inj {scenario scenario' : ScenarioType} {index index' : ℕ}
    (h : caseId scenario index = caseId scenario' index') :
    scenario = scenario' ∧ index = index' := by
  obtain ⟨hvalue, hindex⟩ := nameWithNumber_inj h
  exact ⟨ScenarioType.value_injective hvalue, hindex⟩

end RecoverAI.Evaluation
