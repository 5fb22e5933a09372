import RecoverAI.Domain.Providers
import RecoverAI.Domain.Risk
import RecoverAI.Framework.Binary64
import RecoverAI.Models.Columns
import RecoverAI.Runs.Schedules

/-!
# The policy ladder of the dashboard

`PolicyLadder.tsx` puts the rules of the policy next to a recommendation, written again in
TypeScript and with the limits from `/system/info`. It agrees with the policy about the
three actions that pursue recovery. For the other two it never looks at the amount, and
the policy does (`policyLadder_permitted_iff`).
-/

namespace RecoverAI.Frontend

open Python.Float (ofInt ofInt_le_iff ofInt_lt_iff le_ofInt_iff)

/-! ### What the dashboard is served -/

/-- `PolicyLimits` of `app/schemas/system.py`. -/
structure PolicyLimits where
  maxRetryCount : ℤ
  maxRecoveryWindowDays : ℤ
  maxCustomerContacts : ℤ
  minConfidenceThreshold : ℚ
  highValueAmountThreshold : ℤ
  highValueMinConfidenceThreshold : ℚ
  maxRecoveryAmount : ℤ

/-- The limits in the answer of `get_system_info`. -/
def getSystemInfo (s : Settings) : PolicyLimits where
  maxRetryCount := s.policyMaxRetryCount
  maxRecoveryWindowDays := s.policyMaxRecoveryWindowDays
  maxCustomerContacts := s.policyMaxCustomerContacts
  minConfidenceThreshold := s.policyMinConfidenceThreshold
  highValueAmountThreshold := s.policyHighValueAmountThreshold
  highValueMinConfidenceThreshold := s.policyHighValueMinConfidenceThreshold
  maxRecoveryAmount := s.policyMaxRecoveryAmount

/-- A point in time as JavaScript has it, in milliseconds: up to 100,000,000 days from 1970. -/
abbrev TimeValue := { t : ℤ // -8_640_000_000_000_000 ≤ t ∧ t ≤ 8_640_000_000_000_000 }

/-- What the ladder reads of a case. -/
structure RecoveryCaseDetail where
  recommendedAction : Option RecoveryAction
  recoveryConfidence : Option ℚ
  currentAttemptNumber : IntegerColumn
  customerContactCount : IntegerColumn
  createdAt : TimeValue
  /-- `detail.payment.amount` -/
  amount : IntegerColumn

/-! ### The ladder -/

/-- A rule with its verdict; the text beside it is left out. -/
structure Check where
  label : String
  pass : Bool
  deriving DecidableEq, Repr

def activeActions : List String := ["retry_payment", "send_payment_link", "send_reminder"]

def contactActions : List String := ["send_payment_link", "send_reminder"]

/-- `daysSince`. Below some 2 ^ 27 days the quotient of two time values is nearer to no whole
day than a binary64 number can tell, so it is rounded down as it is; the rounding of the
quotient of longer times is left out. -/
def daysSince (iso now : TimeValue) : ℤ := max 0 ((now.val - iso.val) / 86_400_000)

/-- The list `checks`, given the limits. -/
def policyChecks (action : String) (detail : RecoveryCaseDetail) (policy : PolicyLimits)
    (now : TimeValue) : List Check :=
  let confidence := detail.recoveryConfidence.getD 0
  let amount := ofInt detail.amount
  let highValue := (ofInt policy.highValueAmountThreshold).le amount
  let threshold :=
    if highValue then policy.highValueMinConfidenceThreshold else policy.minConfidenceThreshold
  (if action = "retry_payment" then
    [⟨"Retry limit",
      (ofInt detail.currentAttemptNumber).lt (ofInt policy.maxRetryCount)⟩] else []) ++
  [⟨"Amount ceiling",
    (ofInt 0).lt amount && amount.le (ofInt policy.maxRecoveryAmount)⟩] ++
  (if action ∈ activeActions then
    [⟨if highValue then "Confidence (high-value)" else "Confidence",
      threshold ≤ confidence⟩,
     ⟨"Recovery window",
      (ofInt (daysSince detail.createdAt now)).le
        (ofInt policy.maxRecoveryWindowDays)⟩] else []) ++
  (if action ∈ contactActions then
    [⟨"Customer contacts",
      (ofInt detail.customerContactCount).lt (ofInt policy.maxCustomerContacts)⟩] else [])

/-- What stands between the recommendation and the verdict. -/
inductive Ladder where
  /-- No recommendation yet. -/
  | noRecommendation
  /-- "A safe fallback — always permitted, never gated on confidence." -/
  | safeFallback
  /-- "Policy limits unavailable." -/
  | limitsUnavailable
  | checks (checks : List Check)
  deriving DecidableEq, Repr

/-- `PolicyLadder` -/
def policyLadder (detail : RecoveryCaseDetail) (policy : Option PolicyLimits) (now : TimeValue) :
    Ladder :=
  match detail.recommendedAction with
  | none => .noRecommendation
  | some action =>
    let checks := match policy with
      | some policy => policyChecks action.value detail policy now
      | none => []
    let isFallback := action.value = "escalate" ∨ action.value = "stop"
    if isFallback then .safeFallback
    else if checks.length = 0 then .limitsUnavailable
    else .checks checks

/-- The ladder presents the action as permitted. -/
def Ladder.permitted : Ladder → Bool
  | .noRecommendation | .limitsUnavailable => false
  | .safeFallback => true
  | .checks list => list.all Check.pass

/-- What the policy is asked about the same values at the same moment. -/
def RecoveryCaseDetail.policyInput (detail : RecoveryCaseDetail) (action : RecoveryAction)
    (now : TimeValue) : PolicyEvaluationInput where
  caseStatus := .policyReview
  proposedAction := action
  attemptNumber := detail.currentAttemptNumber
  daysSinceDiscovery := wholeDays (now.val * 1000 - detail.createdAt.val * 1000)
  customerContactCount := detail.customerContactCount
  recoveryConfidence := detail.recoveryConfidence.getD 0
  amount := detail.amount

variable {detail : RecoveryCaseDetail} {settings : Settings} {now : TimeValue}
  {action : RecoveryAction}

/-! ### The ladder and the policy -/

/-- A value of a column is a number that JavaScript has. -/
theorem natAbs_lt (n : IntegerColumn) : n.val.natAbs < 2 ^ 53 := by
  obtain ⟨n, hlow, hhigh⟩ := n
  show n.natAbs < 2 ^ 53
  omega

/-- Both count the days alike. -/
theorem daysSince_eq (h : detail.createdAt.val ≤ now.val) :
    daysSince detail.createdAt now = wholeDays (now.val * 1000 - detail.createdAt.val * 1000) := by
  have hnonneg : 0 ≤ (now.val - detail.createdAt.val) / 86_400_000 :=
    Int.ediv_nonneg (by omega) (by decide)
  rw [daysSince, max_eq_right hnonneg, wholeDays, microsecondsPerDay, ← Int.sub_mul]
  omega

theorem natAbs_daysSince_lt : (daysSince detail.createdAt now).natAbs < 2 ^ 53 := by
  obtain ⟨now, hnow⟩ := now
  obtain ⟨createdAt, hcreated⟩ := detail.createdAt
  show (max 0 ((now - createdAt) / 86_400_000)).natAbs < 2 ^ 53
  omega

theorem activeActions_iff : action.value ∈ activeActions ↔ action ∈ activeRecoveryActions := by
  cases action with
  | _ => decide

theorem contactActions_iff :
    action.value ∈ contactActions ↔ action ∈ RecoverAI.contactActions := by
  cases action with
  | _ => decide

theorem fallback_iff : (action.value = "escalate" ∨ action.value = "stop") ↔
    action ∉ activeRecoveryActions := by
  cases action with
  | _ => decide

theorem all_ite {p : Prop} [Decidable p] {checks : List Check} :
    (if p then checks else []).all Check.pass ↔ (p → checks.all Check.pass) := by
  by_cases h : p <;> simp [h]

/-- The confidence that is asked for is the one of the policy. -/
theorem threshold_eq : (if (ofInt (getSystemInfo settings).highValueAmountThreshold).le
      (ofInt detail.amount) then (getSystemInfo settings).highValueMinConfidenceThreshold
    else (getSystemInfo settings).minConfidenceThreshold) =
    (getPolicyConfig settings).confidenceThreshold detail.amount := by
  rw [PolicyConfig.confidenceThreshold]
  exact if_congr (le_ofInt_iff (natAbs_lt detail.amount)) rfl rfl

/-- The checks pass when the policy lets the action pass. -/
theorem policyChecks_pass_iff (hnow : detail.createdAt.val ≤ now.val) :
    (policyChecks action.value detail (getSystemInfo settings) now).all Check.pass ↔
      (evaluatePolicy (detail.policyInput action now) (getPolicyConfig settings)).decision =
        .allow := by
  have hterminal : RecoveryCaseStatus.policyReview ∉ terminalRecoveryCaseStatuses := by decide
  have hretry : action.value = "retry_payment" ↔ action = .retryPayment := by
    cases action with
    | _ => decide
  have hzero : (0 : ℤ).natAbs < 2 ^ 53 := by decide
  have hdays : (wholeDays (now.val * 1000 - detail.createdAt.val * 1000)).natAbs < 2 ^ 53 :=
    daysSince_eq hnow ▸ natAbs_daysSince_lt
  simp only [policyChecks, List.all_append, Bool.and_eq_true, all_ite, List.all_cons, List.all_nil,
    and_true, hretry, activeActions_iff, contactActions_iff, threshold_eq,
    ofInt_lt_iff (natAbs_lt _), ofInt_le_iff (natAbs_lt _), ofInt_lt_iff hzero,
    ofInt_le_iff hdays, daysSince_eq hnow, decide_eq_true_eq]
  rw [evaluatePolicy_allow_iff_rules]
  simp only [RecoveryCaseDetail.policyInput, hterminal, policyReview_mem_actionEligibleStatuses,
    not_false_eq_true, true_and, confidenceGatedActions, getSystemInfo, getPolicyConfig]
  tauto

/-- And the ladder shows them for the actions that pursue recovery. -/
theorem policyLadder_of_active (haction : detail.recommendedAction = some action)
    (hactive : action ∈ activeRecoveryActions) (policy : PolicyLimits) :
    policyLadder detail (some policy) now =
      .checks (policyChecks action.value detail policy now) := by
  have hne : (policyChecks action.value detail policy now).length ≠ 0 := by
    simp [policyChecks]
  simp only [policyLadder, haction, fallback_iff, hactive, not_true_eq_false, if_false, if_neg hne]

theorem policyLadder_of_fallback (haction : detail.recommendedAction = some action)
    (hfallback : action ∉ activeRecoveryActions) (policy : PolicyLimits) :
    policyLadder detail (some policy) now = .safeFallback := by
  simp only [policyLadder, haction, fallback_iff, if_pos hfallback]

/-- The other two are allowed whenever the amount is in bounds. -/
theorem evaluatePolicy_fallback_iff (hfallback : action ∉ activeRecoveryActions) :
    (evaluatePolicy (detail.policyInput action now) (getPolicyConfig settings)).decision =
        .allow ↔
      0 < detail.amount.val ∧ detail.amount.val ≤ settings.policyMaxRecoveryAmount := by
  have hterminal : RecoveryCaseStatus.policyReview ∉ terminalRecoveryCaseStatuses := by decide
  have hretry : action ≠ .retryPayment := fun h => hfallback (h ▸ by decide)
  have hcontact : action ∉ RecoverAI.contactActions := fun h =>
    hfallback (List.mem_cons_of_mem _ h)
  rw [evaluatePolicy_allow_iff_rules]
  simp only [RecoveryCaseDetail.policyInput, hterminal, policyReview_mem_actionEligibleStatuses,
    not_false_eq_true, true_and, confidenceGatedActions, getPolicyConfig, hretry, hcontact,
    hfallback, false_imp_iff, and_true]

/-- **Where the ladder agrees with the policy.** The ladder presents the recommended action as
permitted if and only if the policy allows it, unless the action is to escalate or to stop
and the amount is out of bounds. -/
theorem policyLadder_permitted_iff (settings : Settings)
    (haction : detail.recommendedAction = some action)
    (hnow : detail.createdAt.val ≤ now.val) :
    ((policyLadder detail (some (getSystemInfo settings)) now).permitted = true ↔
      (evaluatePolicy (detail.policyInput action now) (getPolicyConfig settings)).decision =
        .allow) ↔
    ((action = .escalate ∨ action = .stop) →
      0 < detail.amount.val ∧ detail.amount.val ≤ settings.policyMaxRecoveryAmount) := by
  have hkinds : (action = .escalate ∨ action = .stop) ↔ action ∉ activeRecoveryActions := by
    cases action with
    | _ => decide
  rw [hkinds]
  by_cases hactive : action ∈ activeRecoveryActions
  · rw [policyLadder_of_active haction hactive]
    exact iff_of_true (policyChecks_pass_iff hnow) (absurd hactive)
  · rw [policyLadder_of_fallback haction hactive, evaluatePolicy_fallback_iff hactive]
    simp [Ladder.permitted, hactive]

/-- The settings of `app/core/config.py` where none are given. -/
def defaultSettings : Settings :=
  { Sample.settings with
    policyMinConfidenceThreshold := 55 / 100
    policyHighValueMinConfidenceThreshold := 75 / 100
    minConfidenceThreshold_mem := by decide +kernel
    highValueMinConfidenceThreshold_mem := by decide +kernel }

/-- A case of a payment, with the recommendation to escalate it. -/
def escalation (amount : IntegerColumn) : RecoveryCaseDetail where
  recommendedAction := some .escalate
  recoveryConfidence := some (4 / 10)
  currentAttemptNumber := ⟨1, by decide⟩
  customerContactCount := ⟨0, by decide⟩
  createdAt := ⟨0, by decide⟩
  amount := amount

theorem policyLadder_permitted_escalation :
    ((policyLadder (escalation ⟨20_000, by decide⟩) (some (getSystemInfo defaultSettings))
      ⟨1, by decide⟩).permitted = true ↔
      (evaluatePolicy ((escalation ⟨20_000, by decide⟩).policyInput .escalate ⟨1, by decide⟩)
        (getPolicyConfig defaultSettings)).decision = .allow) ↔
    ((RecoveryAction.escalate = .escalate ∨ RecoveryAction.escalate = .stop) →
      (0 : ℤ) < 20_000 ∧ (20_000 : ℤ) ≤ 10_000_000) :=
  policyLadder_permitted_iff defaultSettings rfl (by decide)

/-- With an amount over the ceiling the dashboard shows it as always permitted, and the policy
blocks it. -/
theorem escalation_large :
    (policyLadder (escalation ⟨10_000_001, by decide⟩) (some (getSystemInfo defaultSettings))
      ⟨0, by decide⟩).permitted = true ∧
    (evaluatePolicy ((escalation ⟨10_000_001, by decide⟩).policyInput .escalate ⟨0, by decide⟩)
      (getPolicyConfig defaultSettings)).decision = .block := by
  decide +kernel

end RecoverAI.Frontend
