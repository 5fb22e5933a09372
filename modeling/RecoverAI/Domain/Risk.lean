import RecoverAI.Domain.Policy

/-!
# The risk order of the policy

An input is no riskier than another when it asks for the same action in the same
status, with counts and an amount no larger and a confidence no smaller. The
policy should never block the safer of two inputs; the only rule in which that can
go wrong is the confidence rule, whose threshold changes with the amount.
-/

namespace RecoverAI

/-- `input'` carries no more risk than `input` in any of the facts the policy reads. -/
structure PolicyEvaluationInput.NoRiskier (input' input : PolicyEvaluationInput) : Prop where
  caseStatus : input'.caseStatus = input.caseStatus
  proposedAction : input'.proposedAction = input.proposedAction
  attemptNumber : input'.attemptNumber ≤ input.attemptNumber
  daysSinceDiscovery : input'.daysSinceDiscovery ≤ input.daysSinceDiscovery
  customerContactCount : input'.customerContactCount ≤ input.customerContactCount
  recoveryConfidence : input.recoveryConfidence ≤ input'.recoveryConfidence
  amount_pos : 0 < input'.amount
  amount_le : input'.amount ≤ input.amount

/-- What is allowed stays allowed when the risk goes down. -/
def PolicyConfig.MonotoneInRisk (config : PolicyConfig) : Prop :=
  ∀ input input' : PolicyEvaluationInput, input'.NoRiskier input →
    (evaluatePolicy input config).decision = .allow →
    (evaluatePolicy input' config).decision = .allow

/-- The threshold does not fall anywhere among the amounts the policy lets through. -/
def PolicyConfig.ThresholdRises (config : PolicyConfig) : Prop :=
  ∀ amount' amount : Int, 0 < amount' → amount' ≤ amount → amount ≤ config.maxRecoveryAmount →
    config.confidenceThreshold amount' ≤ config.confidenceThreshold amount

variable {config : PolicyConfig} {input input' : PolicyEvaluationInput}

/-- **What ALLOW means**, rule by rule and for every action. -/
theorem evaluatePolicy_allow_iff_rules :
    (evaluatePolicy input config).decision = .allow ↔
      input.caseStatus ∉ terminalRecoveryCaseStatuses ∧
      input.caseStatus ∈ actionEligibleStatuses input.proposedAction ∧
      (input.proposedAction = .retryPayment → input.attemptNumber < config.maxRetryCount) ∧
      (input.proposedAction ∈ activeRecoveryActions →
        input.daysSinceDiscovery ≤ config.maxRecoveryWindowDays) ∧
      (input.proposedAction ∈ contactActions →
        input.customerContactCount < config.maxCustomerContacts) ∧
      0 < input.amount ∧ input.amount ≤ config.maxRecoveryAmount ∧
      (input.proposedAction ∈ confidenceGatedActions →
        config.confidenceThreshold input.amount ≤ input.recoveryConfidence) := by
  rw [evaluatePolicy_allow_iff]
  simp only [violatedRules, List.append_eq_nil_iff, ite_eq_right_iff, List.cons_ne_nil, imp_false,
    Classical.not_not, not_and, not_or, ge_iff_le, gt_iff_lt, not_lt, not_le, and_assoc]

/-- An input that passes keeps passing every rule but the confidence rule when its
risk goes down, and that one too where the threshold does not rise on the way down. -/
theorem PolicyEvaluationInput.NoRiskier.allow (h : input'.NoRiskier input)
    (hthreshold : config.confidenceThreshold input'.amount ≤ config.confidenceThreshold input.amount)
    (hallow : (evaluatePolicy input config).decision = .allow) :
    (evaluatePolicy input' config).decision = .allow := by
  rw [evaluatePolicy_allow_iff_rules] at hallow ⊢
  obtain ⟨hterminal, heligible, hretries, hwindow, hcontacts, -, hmax, hconfidence⟩ := hallow
  rw [h.caseStatus, h.proposedAction]
  refine ⟨hterminal, heligible, ?_, ?_, ?_, h.amount_pos, le_trans h.amount_le hmax, ?_⟩
  · intro ha
    exact lt_of_le_of_lt h.attemptNumber (hretries ha)
  · intro ha
    exact le_trans h.daysSinceDiscovery (hwindow ha)
  · intro ha
    exact lt_of_le_of_lt h.customerContactCount (hcontacts ha)
  · intro ha
    calc config.confidenceThreshold input'.amount
        ≤ config.confidenceThreshold input.amount := hthreshold
      _ ≤ input.recoveryConfidence := hconfidence ha
      _ ≤ input'.recoveryConfidence := h.recoveryConfidence

/-- A payment link asked for with just the confidence its amount needs. -/
def PolicyConfig.borderline (config : PolicyConfig) (recoveryConfidence : ℚ) (amount : Int) :
    PolicyEvaluationInput where
  caseStatus := .approved
  proposedAction := .sendPaymentLink
  attemptNumber := 0
  daysSinceDiscovery := config.maxRecoveryWindowDays
  customerContactCount := config.maxCustomerContacts - 1
  recoveryConfidence := recoveryConfidence
  amount := amount

theorem PolicyConfig.borderline_allow_iff {confidence : ℚ} {amount : Int} :
    (evaluatePolicy (config.borderline confidence amount) config).decision = .allow ↔
      0 < amount ∧ amount ≤ config.maxRecoveryAmount ∧
      config.confidenceThreshold amount ≤ confidence := by
  have hstatus : RecoveryCaseStatus.approved ∈ actionEligibleStatuses .sendPaymentLink := by decide
  rw [evaluatePolicy_sendPaymentLink_iff rfl]
  constructor
  · rintro ⟨-, -, -, h⟩
    exact h
  · intro h
    exact ⟨hstatus, le_refl _, Int.sub_one_lt_of_le (le_refl _), h⟩

/-- The policy is monotone exactly when its threshold is: a case just confident
enough at the larger amount shows any fall of the threshold. -/
theorem PolicyConfig.monotoneInRisk_iff_thresholdRises :
    config.MonotoneInRisk ↔ config.ThresholdRises := by
  constructor
  · intro h amount' amount hpos hle hmax
    have hallow : (evaluatePolicy
        (config.borderline (config.confidenceThreshold amount) amount) config).decision = .allow :=
      borderline_allow_iff.mpr ⟨lt_of_lt_of_le hpos hle, hmax, le_refl _⟩
    have hsafer : (config.borderline (config.confidenceThreshold amount) amount').NoRiskier
        (config.borderline (config.confidenceThreshold amount) amount) :=
      ⟨rfl, rfl, le_refl _, le_refl _, le_refl _, le_refl _, hpos, hle⟩
    exact (borderline_allow_iff.mp (h _ _ hsafer hallow)).2.2
  · intro h input input' hsafer hallow
    have hmax : input.amount ≤ config.maxRecoveryAmount :=
      (evaluatePolicy_allow_iff_rules.mp hallow).2.2.2.2.2.2.1
    exact hsafer.allow (h _ _ hsafer.amount_pos hsafer.amount_le hmax) hallow

/-! ### The settings -/

/-- The high-value threshold asks for at least as much confidence as the ordinary
one, or one of the two is never used: no amount that may be recovered is high-value,
or every positive amount is. -/
def Settings.HighValueStricter (settings : Settings) : Prop :=
  settings.policyMinConfidenceThreshold ≤ settings.policyHighValueMinConfidenceThreshold ∨
  settings.policyMaxRecoveryAmount < settings.policyHighValueAmountThreshold ∨
  settings.policyHighValueAmountThreshold = 1

theorem Settings.thresholdRises_iff (settings : Settings) :
    (getPolicyConfig settings).ThresholdRises ↔ settings.HighValueStricter := by
  constructor
  · intro h
    by_cases hmax : settings.policyMaxRecoveryAmount < settings.policyHighValueAmountThreshold
    · exact .inr (.inl hmax)
    · by_cases hone : settings.policyHighValueAmountThreshold = 1
      · exact .inr (.inr hone)
      · -- one unit is an ordinary amount, the high-value threshold itself a high one
        have hge := settings.highValueAmountThreshold_ge
        have hlow : ¬ 1 ≥ settings.policyHighValueAmountThreshold := by omega
        have hle := h 1 settings.policyHighValueAmountThreshold (by decide) hge (not_lt.mp hmax)
        simp only [PolicyConfig.confidenceThreshold, getPolicyConfig, ge_iff_le, le_refl, if_true,
          if_neg hlow] at hle
        exact .inl hle
  · intro h amount' amount hpos hle hmax
    have hmax' : amount ≤ settings.policyMaxRecoveryAmount := hmax
    show (if amount' ≥ settings.policyHighValueAmountThreshold then
        settings.policyHighValueMinConfidenceThreshold else settings.policyMinConfidenceThreshold) ≤
      (if amount ≥ settings.policyHighValueAmountThreshold then
        settings.policyHighValueMinConfidenceThreshold else settings.policyMinConfidenceThreshold)
    by_cases hhigh' : amount' ≥ settings.policyHighValueAmountThreshold
    · rw [if_pos hhigh', if_pos (le_trans hhigh' hle)]
    · rw [if_neg hhigh']
      by_cases hhigh : amount ≥ settings.policyHighValueAmountThreshold
      · rw [if_pos hhigh]
        obtain hordered | hnone | hall := h
        · exact hordered
        · omega
        · omega
      · rw [if_neg hhigh]

/-- **The policy is monotone in risk exactly under `HighValueStricter`.** The settings
are validated one by one, so that nothing keeps the two thresholds in order. -/
theorem monotoneInRisk_iff_highValueStricter (settings : Settings) :
    (getPolicyConfig settings).MonotoneInRisk ↔ settings.HighValueStricter := by
  rw [PolicyConfig.monotoneInRisk_iff_thresholdRises, settings.thresholdRises_iff]

/-- Settings that load although the high-value threshold is the lower one. -/
def Settings.looseHighValue : Settings where
  recoveryPaymentLinkExpiryHours := 48
  policyMaxRetryCount := 5
  policyMaxRecoveryWindowDays := 30
  policyMaxCustomerContacts := 4
  policyMinConfidenceThreshold := 4 / 5
  policyHighValueAmountThreshold := 250_000
  policyHighValueMinConfidenceThreshold := 1 / 2
  policyMaxRecoveryAmount := 5_000_000
  expiryHours_ge := by decide
  maxRetryCount_ge := by decide
  maxRecoveryWindowDays_ge := by decide
  maxCustomerContacts_ge := by decide
  minConfidenceThreshold_mem := by decide +kernel
  highValueAmountThreshold_ge := by decide
  highValueMinConfidenceThreshold_mem := by decide +kernel
  maxRecoveryAmount_ge := by decide

/-- With these settings 2,500.00 is sent at a confidence of 0.6, and 2,499.99 is not. -/
theorem cheaper_case_blocked : ¬ (getPolicyConfig Settings.looseHighValue).MonotoneInRisk := by
  intro h
  have hallow : (evaluatePolicy ⟨.approved, .sendPaymentLink, 1, 0, 0, 3 / 5, 250000⟩
      (getPolicyConfig Settings.looseHighValue)).decision = .allow := by decide +kernel
  have hblock : (evaluatePolicy ⟨.approved, .sendPaymentLink, 1, 0, 0, 3 / 5, 249999⟩
      (getPolicyConfig Settings.looseHighValue)).decision = .block := by decide +kernel
  have hsafer : PolicyEvaluationInput.NoRiskier
      ⟨.approved, .sendPaymentLink, 1, 0, 0, 3 / 5, 249999⟩
      ⟨.approved, .sendPaymentLink, 1, 0, 0, 3 / 5, 250000⟩ :=
    ⟨rfl, rfl, le_refl _, le_refl _, le_refl _, le_refl _, by decide, by decide⟩
  rw [h _ _ hsafer hallow] at hblock
  exact absurd hblock (by decide)

end RecoverAI
