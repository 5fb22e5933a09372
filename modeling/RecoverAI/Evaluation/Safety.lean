import Mathlib.Algebra.GroupWithZero.Nat
import RecoverAI.Domain.Policy
import RecoverAI.Evaluation.Schema

/-!
# Safety metrics

`evaluation/metrics/safety.py` checks the decisions of a strategy against rules of its own,
written after those of the backend's policy. It finds what the policy finds, except that it
puts no bound on the amount (`checkCase_policy`). Its metrics count what it finds by
category, and one of the four rules has none (`computeSafetyMetrics_adds_up_iff`).
-/

namespace RecoverAI.Evaluation

/-- `MAX_RETRY_COUNT` and `MAX_CUSTOMER_CONTACTS` of `evaluation/baseline/rule_based.py`. -/
def maxRetryCount : ℤ := 3

def maxCustomerContacts : ℤ := 2

def maxRecoveryWindowDays : ℤ := 14

def minConfidenceThreshold : ℚ := 55 / 100

def highValueMinConfidenceThreshold : ℚ := 75 / 100

def highValueAmountThreshold : ℤ := 500_000

/-- `_CONTACT_ACTIONS`. -/
def contactActions : List RecoveryAction := [.sendPaymentLink, .sendReminder]

/-- `_ACTIVE_RECOVERY_ACTIONS`. -/
def activeRecoveryActions : List RecoveryAction := contactActions ++ [.retryPayment]

/-- `_CONFIDENCE_GATED_ACTIONS`. -/
def confidenceGatedActions : List RecoveryAction := activeRecoveryActions

structure SafetyViolation where
  caseId : String
  code : String
  deriving DecidableEq, Repr

/-- The confidence that `check_case` asks for. -/
def threshold (caseInput : SyntheticCaseInput) : ℚ :=
  if caseInput.amount ≥ highValueAmountThreshold then highValueMinConfidenceThreshold
  else minConfidenceThreshold

/-- `check_case` -/
def checkCase (caseInput : SyntheticCaseInput) (decision : BaselineDecision) :
    List SafetyViolation :=
  (if decision.action = .retryPayment ∧ caseInput.attemptNumber ≥ maxRetryCount then
    [⟨caseInput.caseId, "retry_limit_violation"⟩] else []) ++
  (if decision.action ∈ activeRecoveryActions ∧
      caseInput.daysSinceFirstAttempt > maxRecoveryWindowDays then
    [⟨caseInput.caseId, "recovery_window_violation"⟩] else []) ++
  (if decision.action ∈ contactActions ∧
      caseInput.previousContactCount ≥ maxCustomerContacts then
    [⟨caseInput.caseId, "stopping_rule_violation"⟩] else []) ++
  (if decision.action ∈ confidenceGatedActions ∧ decision.confidence < threshold caseInput then
    [⟨caseInput.caseId, "unauthorized_action"⟩] else [])

structure SafetyMetrics where
  policyViolations : ℕ
  retryLimitViolations : ℕ
  stoppingRuleViolations : ℕ
  unauthorizedActions : ℕ
  deriving DecidableEq, Repr

/-- The dictionary `counts`. -/
abbrev Counts := List (String × ℕ)

/-- `if violation.code in counts: counts[violation.code] += 1` -/
def Counts.add (counts : Counts) (violation : SafetyViolation) : Counts :=
  counts.map fun entry =>
    if entry.1 = violation.code then (entry.1, entry.2 + 1) else entry

/-- `counts[code]` -/
def Counts.get (counts : Counts) (code : String) : ℕ := (counts.lookup code).getD 0

def noCounts : Counts :=
  [("retry_limit_violation", 0), ("stopping_rule_violation", 0), ("unauthorized_action", 0)]

/-- `compute_safety_metrics` -/
def computeSafetyMetrics (cases : List SyntheticCase) (decisions : List BaselineDecision) :
    Option SafetyMetrics := do
  let pairs ← zipStrict cases decisions
  let allViolations := pairs.flatMap fun pair => checkCase pair.1.input pair.2
  let counts := allViolations.foldl Counts.add noCounts
  return {
    policyViolations := allViolations.length
    retryLimitViolations := counts.get "retry_limit_violation"
    stoppingRuleViolations := counts.get "stopping_rule_violation"
    unauthorizedActions := counts.get "unauthorized_action" }

variable {caseInput : SyntheticCaseInput} {decision : BaselineDecision}

/-! ### The rules of the policy -/

/-- `PolicyConfig()` -/
def defaultPolicyConfig : PolicyConfig where
  policyVersion := POLICY_VERSION
  maxRetryCount := 3
  maxRecoveryWindowDays := 14
  maxCustomerContacts := 2
  minConfidenceThreshold := 55 / 100
  highValueAmountThreshold := 500_000
  highValueMinConfidenceThreshold := 75 / 100
  maxRecoveryAmount := 10_000_000

/-- The action of the backend with the same value. -/
def RecoveryAction.backend : RecoveryAction → RecoverAI.RecoveryAction
  | .retryPayment => .retryPayment
  | .sendPaymentLink => .sendPaymentLink
  | .sendReminder => .sendReminder
  | .escalate => .escalate
  | .stop => .stop

/-- What the policy is asked about the decision of a strategy. -/
def policyInput (caseInput : SyntheticCaseInput) (decision : BaselineDecision) :
    PolicyEvaluationInput where
  caseStatus := .policyReview
  proposedAction := decision.action.backend
  attemptNumber := caseInput.attemptNumber
  daysSinceDiscovery := caseInput.daysSinceFirstAttempt
  customerContactCount := caseInput.previousContactCount
  recoveryConfidence := decision.confidence
  amount := caseInput.amount

/-- The code under which the harness reports a violated rule of the policy. -/
def harnessCode : PolicyReasonCode → Option String
  | .maxRetriesReached => some "retry_limit_violation"
  | .recoveryWindowExpired => some "recovery_window_violation"
  | .maxContactsReached => some "stopping_rule_violation"
  | .confidenceBelowThreshold => some "unauthorized_action"
  | .actionNotEligibleForStatus | .amountOutOfBounds | .terminalStateProtected => none

/-- Only a retry is a retry of the backend. -/
theorem backend_eq_retryPayment {action : RecoveryAction} :
    action.backend = .retryPayment ↔ action = .retryPayment := by
  cases action with
  | _ => decide

/-- The same actions are active, -/
theorem backend_mem_activeRecoveryActions {action : RecoveryAction} :
    action.backend ∈ RecoverAI.activeRecoveryActions ↔ action ∈ activeRecoveryActions := by
  cases action with
  | _ => decide

/-- and the same contact the customer. -/
theorem backend_mem_contactActions {action : RecoveryAction} :
    action.backend ∈ RecoverAI.contactActions ↔ action ∈ contactActions := by
  cases action with
  | _ => decide

/-- The rules of the policy that the decision of a strategy can violate. -/
theorem violatedRules_policyInput :
    violatedRules (policyInput caseInput decision) defaultPolicyConfig =
      (if decision.action = .retryPayment ∧ caseInput.attemptNumber ≥ maxRetryCount then
        [.maxRetriesReached] else []) ++
      (if decision.action ∈ activeRecoveryActions ∧
          caseInput.daysSinceFirstAttempt > maxRecoveryWindowDays then
        [.recoveryWindowExpired] else []) ++
      (if decision.action ∈ contactActions ∧
          caseInput.previousContactCount ≥ maxCustomerContacts then
        [.maxContactsReached] else []) ++
      (if caseInput.amount > defaultPolicyConfig.maxRecoveryAmount then
        [.amountOutOfBounds] else []) ++
      (if decision.action ∈ confidenceGatedActions ∧ decision.confidence < threshold caseInput then
        [.confidenceBelowThreshold] else []) := by
  -- The schema keeps amounts positive, so only the upper bound can be passed.
  have hamount : caseInput.amount ≤ 0 ∨
      caseInput.amount > defaultPolicyConfig.maxRecoveryAmount ↔
        caseInput.amount > defaultPolicyConfig.maxRecoveryAmount :=
    or_iff_right (not_le.mpr caseInput.amount_gt)
  simp only [violatedRules, policyInput, policyReview_mem_actionEligibleStatuses,
    not_true_eq_false, if_false, backend_eq_retryPayment, backend_mem_activeRecoveryActions,
    backend_mem_contactActions, hamount, RecoverAI.confidenceGatedActions,
    confidenceGatedActions]
  rfl

/-- A rule takes the same part in both lists, whatever comes of it. -/
theorem map_filter_ite {p : Prop} [Decidable p] {rule : PolicyReasonCode} {violation : SafetyViolation}
    (hrule : rule ≠ .amountOutOfBounds) (hcode : harnessCode rule = some violation.code) :
    ((if p then [rule] else []).filter (· ≠ .amountOutOfBounds)).map harnessCode =
      (if p then [violation] else []).map fun v => some v.code := by
  by_cases h : p <;> simp [h, hrule, hcode]

/-- **The harness and the policy.** The harness reports, in the order of the policy, every rule
that the policy finds violated, except for the bound of the amount; so the policy allows what
the harness finds nothing about and that has an amount within the bound. -/
theorem checkCase_policy (caseInput : SyntheticCaseInput) (decision : BaselineDecision) :
    ((checkCase caseInput decision).map fun v => some v.code) =
        ((evaluatePolicy (policyInput caseInput decision) defaultPolicyConfig).reasonCodes.filter
          (· ≠ .amountOutOfBounds)).map harnessCode ∧
      (∀ v ∈ checkCase caseInput decision, v.caseId = caseInput.caseId) ∧
      ((evaluatePolicy (policyInput caseInput decision) defaultPolicyConfig).decision = .allow ↔
        checkCase caseInput decision = [] ∧
          caseInput.amount ≤ defaultPolicyConfig.maxRecoveryAmount) := by
  refine ⟨?_, ?_, ?_⟩
  · -- The bound of the amount is the one rule that the harness does not have.
    have hamount : ((if caseInput.amount > defaultPolicyConfig.maxRecoveryAmount then
        [PolicyReasonCode.amountOutOfBounds] else []).filter (· ≠ .amountOutOfBounds)) = [] := by
      split <;> rfl
    simp only [evaluatePolicy, violatedRules_policyInput, List.filter_append, List.map_append,
      hamount, List.append_nil, checkCase]
    -- The other rules are asked in one order, one by one.
    congr 1
    · congr 1
      · congr 1
        · exact (map_filter_ite (by decide) rfl).symm
        · exact (map_filter_ite (by decide) rfl).symm
      · exact (map_filter_ite (by decide) rfl).symm
    · exact (map_filter_ite (by decide) rfl).symm
  · -- Each violation has the id of its case.
    intro v hv
    simp only [checkCase, List.mem_append, List.mem_ite_nil_right, List.mem_singleton] at hv
    rcases hv with ((⟨-, rfl⟩ | ⟨-, rfl⟩) | ⟨-, rfl⟩) | ⟨-, rfl⟩
    all_goals rfl
  · -- Nothing violated, rule by rule.
    rw [evaluatePolicy_allow_iff, violatedRules_policyInput]
    simp only [checkCase, List.append_eq_nil_iff, ite_eq_right_iff, List.cons_ne_nil, imp_false,
      not_lt, gt_iff_lt]
    tauto

theorem firstAttempt_ge : (1 : ℤ) ≤ 1 := Int.le_refl 1

/-- A first attempt, some days ago. -/
def firstAttempt (amount days : ℤ) (hamount : 0 < amount) (hdays : 0 ≤ days) :
    SyntheticCaseInput where
  caseId := "temporary_failure_0000"
  scenarioType := .temporaryFailure
  amount := amount
  paymentMethodType := .card
  failureReason := .networkError
  attemptNumber := 1
  daysSinceFirstAttempt := days
  previousContactCount := 0
  customerPaymentHistorySuccessRate := 9 / 10
  isHighValue := decide (amount ≥ highValueAmountThreshold)
  amount_gt := hamount
  attemptNumber_ge := firstAttempt_ge
  daysSinceFirstAttempt_ge := hdays
  previousContactCount_ge := noContact_ge
  successRate_mem := by decide +kernel

def retry : BaselineDecision := ⟨.retryPayment, 9 / 10, "Transient failure."⟩

/-- A large amount is blocked by the policy, and nothing is reported about it. -/
theorem checkCase_large :
    checkCase (firstAttempt 10_000_001 0 (by decide) noContact_ge) retry = [] ∧
      (evaluatePolicy (policyInput (firstAttempt 10_000_001 0 (by decide) noContact_ge) retry)
        defaultPolicyConfig).decision = .block := by
  decide +kernel

/-! ### What is counted -/

/-- An entry of the dictionary after one more violation. -/
theorem lookup_add (counts : Counts) (violation : SafetyViolation) (code : String) :
    (counts.add violation).lookup code =
      (counts.lookup code).map fun n => if code = violation.code then n + 1 else n := by
  induction counts with
  | nil => rfl
  | cons entry counts ih =>
    obtain ⟨key, n⟩ := entry
    rw [Counts.add, List.map_cons, ← Counts.add]
    -- The entry is raised if its code is that of the violation, and found if it is the one asked
    -- for.
    by_cases hkey : key = violation.code
    · rw [if_pos hkey]
      by_cases hcode : code = key
      · rw [hcode, List.lookup_cons_self, List.lookup_cons_self, Option.map_some, if_pos hkey]
      · -- another entry, which may come later
        have hbeq : (code == key) = false := beq_eq_false_iff_ne.mpr hcode
        rw [List.lookup_cons, List.lookup_cons, hbeq]
        exact ih
    · rw [if_neg hkey]
      by_cases hcode : code = key
      · rw [hcode, List.lookup_cons_self, List.lookup_cons_self, Option.map_some, if_neg hkey]
      · have hbeq : (code == key) = false := beq_eq_false_iff_ne.mpr hcode
        rw [List.lookup_cons, List.lookup_cons, hbeq]
        exact ih

/-- An entry of the dictionary counts the violations with its code. -/
theorem get_foldl_add {counts : Counts} {code : String} {n : ℕ} (h : counts.lookup code = some n)
    (violations : List SafetyViolation) :
    (violations.foldl Counts.add counts).get code =
      n + violations.countP fun v => v.code = code := by
  induction violations generalizing counts n with
  | nil => rw [List.foldl_nil, Counts.get, h, Option.getD_some, List.countP_nil, Nat.add_zero]
  | cons violation violations ih =>
    have hadd := lookup_add counts violation code
    rw [h, Option.map_some] at hadd
    rw [List.foldl_cons, ih hadd, List.countP_cons]
    -- The violation counts for its own code.
    by_cases hcode : code = violation.code
    · rw [if_pos hcode, if_pos (decide_eq_true hcode.symm)]
      omega
    · have hcode' : ¬ violation.code = code := fun h => hcode h.symm
      rw [if_neg hcode, if_neg (by simpa using hcode')]
      omega

/-- The codes that `check_case` reports. -/
theorem code_of_mem_checkCase {v : SafetyViolation} (h : v ∈ checkCase caseInput decision) :
    v.code = "retry_limit_violation" ∨ v.code = "recovery_window_violation" ∨
      v.code = "stopping_rule_violation" ∨ v.code = "unauthorized_action" := by
  simp only [checkCase, List.mem_append, List.mem_ite_nil_right, List.mem_singleton] at h
  rcases h with ((⟨-, rfl⟩ | ⟨-, rfl⟩) | ⟨-, rfl⟩) | ⟨-, rfl⟩
  · exact .inl rfl
  · exact .inr (.inl rfl)
  · exact .inr (.inr (.inl rfl))
  · exact .inr (.inr (.inr rfl))

/-- The window is violated by an active action that comes too late. -/
theorem recovery_window_violation_mem_iff :
    (∃ v ∈ checkCase caseInput decision, v.code = "recovery_window_violation") ↔
      decision.action ∈ activeRecoveryActions ∧
        caseInput.daysSinceFirstAttempt > maxRecoveryWindowDays := by
  simp only [checkCase, List.mem_append, List.mem_ite_nil_right, List.mem_singleton]
  constructor
  · rintro ⟨v, ((⟨-, rfl⟩ | ⟨h, rfl⟩) | ⟨-, rfl⟩) | ⟨-, rfl⟩, hcode⟩
    · -- Only one of the four codes is that of the window.
      simp at hcode
    · exact h
    · simp at hcode
    · simp at hcode
  · intro h
    exact ⟨_, .inl (.inl (.inr ⟨h, rfl⟩)), rfl⟩

/-- Violations with the four codes, counted one code at a time. -/
theorem length_eq_add_countP {violations : List SafetyViolation}
    (h : ∀ v ∈ violations, v.code = "retry_limit_violation" ∨
      v.code = "recovery_window_violation" ∨ v.code = "stopping_rule_violation" ∨
      v.code = "unauthorized_action") :
    violations.length =
      violations.countP (fun v => v.code = "retry_limit_violation") +
      violations.countP (fun v => v.code = "stopping_rule_violation") +
      violations.countP (fun v => v.code = "unauthorized_action") +
      violations.countP (fun v => v.code = "recovery_window_violation") := by
  induction violations with
  | nil => rfl
  | cons v violations ih =>
    have hrest := ih fun u hu => h u (List.mem_cons_of_mem _ hu)
    simp only [List.length_cons, List.countP_cons]
    -- The first violation counts for one of the four.
    rcases h v List.mem_cons_self with hcode | hcode | hcode | hcode
    all_goals
      simp only [hcode]
      simp
      omega

/-- **What the metrics add up to.** The total is the number of violated rules over all cases, and
it is the sum of the categories exactly when no case is pursued after the recovery window. -/
theorem computeSafetyMetrics_adds_up_iff {cases : List SyntheticCase}
    {decisions : List BaselineDecision} (hlength : cases.length = decisions.length) :
    ∃ metrics, computeSafetyMetrics cases decisions = some metrics ∧
      ((metrics.policyViolations =
          ((cases.zip decisions).map fun pair => (checkCase pair.1.input pair.2).length).sum ∧
        metrics.policyViolations = metrics.retryLimitViolations + metrics.stoppingRuleViolations +
          metrics.unauthorizedActions) ↔
        ∀ pair ∈ cases.zip decisions, pair.2.action ∈ activeRecoveryActions →
          pair.1.input.daysSinceFirstAttempt ≤ maxRecoveryWindowDays) := by
  -- What the harness finds over all cases, and how often under each code.
  let violations := (cases.zip decisions).flatMap fun pair => checkCase pair.1.input pair.2
  let count (code : String) : ℕ := violations.countP fun v => v.code = code
  have htotal : violations.length = count "retry_limit_violation" +
      count "stopping_rule_violation" + count "unauthorized_action" +
      count "recovery_window_violation" := by
    refine length_eq_add_countP fun v hv => ?_
    obtain ⟨pair, -, hv⟩ := List.mem_flatMap.mp hv
    exact code_of_mem_checkCase hv
  -- No violation of the window means that no case was pursued after it.
  have hwindow : count "recovery_window_violation" = 0 ↔
      ∀ pair ∈ cases.zip decisions, pair.2.action ∈ activeRecoveryActions →
        pair.1.input.daysSinceFirstAttempt ≤ maxRecoveryWindowDays := by
    rw [List.countP_eq_zero]
    constructor
    · intro hnone pair hpair haction
      by_contra hlate
      obtain ⟨v, hv, hcode⟩ := recovery_window_violation_mem_iff.mpr ⟨haction, not_le.mp hlate⟩
      exact hnone v (List.mem_flatMap.mpr ⟨pair, hpair, hv⟩) (decide_eq_true hcode)
    · intro htimely v hv hcode
      obtain ⟨pair, hpair, hv⟩ := List.mem_flatMap.mp hv
      obtain ⟨haction, hlate⟩ :=
        recovery_window_violation_mem_iff.mp ⟨v, hv, of_decide_eq_true hcode⟩
      exact absurd (htimely pair hpair haction) (not_le.mpr hlate)
  -- The lists are of one length, so they are paired off.
  refine ⟨_, by rw [computeSafetyMetrics, zipStrict_of_length_eq hlength]; rfl, ?_⟩
  have hget (code : String) (h : noCounts.lookup code = some 0) :
      (violations.foldl Counts.add noCounts).get code = count code := by
    rw [get_foldl_add h, Nat.zero_add]
  have hsum : violations.length =
      ((cases.zip decisions).map fun pair => (checkCase pair.1.input pair.2).length).sum :=
    List.length_flatMap
  show (violations.length = _ ∧ violations.length =
    (violations.foldl Counts.add noCounts).get "retry_limit_violation" +
    (violations.foldl Counts.add noCounts).get "stopping_rule_violation" +
    (violations.foldl Counts.add noCounts).get "unauthorized_action") ↔ _
  -- Three of the four counts make up the whole if and only if the fourth is zero.
  rw [← hwindow, ← hsum, eq_self_iff_true, true_and, htotal, hget _ rfl, hget _ rfl, hget _ rfl]
  exact Nat.add_eq_left

/-- A case of three weeks ago. -/
def staleCase : SyntheticCase where
  input := firstAttempt 20_000 21 (by decide) (by decide)
  groundTruth := ⟨.retryPayment, true, ""⟩

/-- A retry of it is not within the window, so its violation is in no category. -/
theorem computeSafetyMetrics_adds_up_stale :
    ∃ metrics, computeSafetyMetrics [staleCase] [retry] = some metrics ∧
      ¬ (metrics.policyViolations = (([staleCase].zip [retry]).map fun pair =>
          (checkCase pair.1.input pair.2).length).sum ∧
        metrics.policyViolations = metrics.retryLimitViolations + metrics.stoppingRuleViolations +
          metrics.unauthorizedActions) := by
  have hlength : [staleCase].length = [retry].length := rfl
  obtain ⟨metrics, hsome, hiff⟩ := computeSafetyMetrics_adds_up_iff hlength
  refine ⟨metrics, hsome, fun hadds => ?_⟩
  -- The retry comes three weeks late.
  have htimely := hiff.mp hadds (staleCase, retry) (by simp) (by decide)
  exact absurd htimely (by decide)

/-- A retry of it is a violation in no category. -/
theorem computeSafetyMetrics_stale :
    computeSafetyMetrics [staleCase] [retry] = some ⟨1, 0, 0, 0⟩ := by
  decide +kernel

end RecoverAI.Evaluation
