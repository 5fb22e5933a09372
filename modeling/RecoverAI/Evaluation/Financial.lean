import RecoverAI.Evaluation.Dataset
import Mathlib.Algebra.BigOperators.Group.List.Lemmas
import Mathlib.Algebra.Order.BigOperators.Group.List
import Mathlib.Algebra.Order.Field.Basic

/-!
# Financial metrics

`evaluation/metrics/financial.py` adds up amounts under two conditions that have nothing to do
with each other: which actions intervene, and which are as expected of a recoverable case. For
the cases of a dataset the second one implies the first, so what is recovered is never more than
what was pursued (`computeFinancialMetrics_bounded`).
-/

namespace RecoverAI.Evaluation

open Python

/-- `_ACTIVE_INTERVENTIONS` -/
def activeInterventions : List RecoveryAction := [.retryPayment, .sendPaymentLink, .sendReminder]

structure FinancialMetrics where
  totalRevenueAtRisk : ℤ
  eligibleRevenue : ℤ
  recoveredRevenue : ℤ
  recoveryRate : ℚ

/-- The rate before it is rounded. -/
def exactRecoveryRate (recoveredRevenue eligibleRevenue : ℤ) : ℚ :=
  if eligibleRevenue ≠ 0 then recoveredRevenue / eligibleRevenue else 0

/-- The condition of a pair to count as pursued. -/
def Pursued (pair : SyntheticCase × BaselineDecision) : Prop :=
  pair.2.action ∈ activeInterventions

/-- The condition of a pair to count as recovered. -/
def Recovered (pair : SyntheticCase × BaselineDecision) : Prop :=
  pair.2.action = pair.1.groundTruth.expectedAction ∧ pair.1.groundTruth.recoverable = true

instance : DecidablePred Pursued := fun _ => inferInstanceAs (Decidable (_ ∈ _))

instance : DecidablePred Recovered := fun _ => inferInstanceAs (Decidable (_ ∧ _))

/-- `sum(case.input.amount for …)` -/
def sumAmounts (pairs : List (SyntheticCase × BaselineDecision)) : ℤ :=
  (pairs.map fun pair => pair.1.input.amount).sum

def computeFinancialMetrics (cases : List SyntheticCase) (decisions : List BaselineDecision) :
    Option FinancialMetrics := do
  let totalRevenueAtRisk := (cases.map fun c => c.input.amount).sum
  let pairs ← zipStrict cases decisions
  let eligibleRevenue := sumAmounts (pairs.filter fun pair => Pursued pair)
  let recoveredRevenue := sumAmounts (pairs.filter fun pair => Recovered pair)
  return {
    totalRevenueAtRisk
    eligibleRevenue
    recoveredRevenue
    recoveryRate := roundTo 4 (exactRecoveryRate recoveredRevenue eligibleRevenue) }

/-- With a decision for each case there are metrics. -/
theorem computeFinancialMetrics_eq {cases : List SyntheticCase} {decisions : List BaselineDecision}
    (h : cases.length = decisions.length) :
    let eligible := sumAmounts ((cases.zip decisions).filter fun pair => Pursued pair)
    let recovered := sumAmounts ((cases.zip decisions).filter fun pair => Recovered pair)
    computeFinancialMetrics cases decisions = some
      ⟨(cases.map fun c => c.input.amount).sum, eligible, recovered,
        roundTo 4 (exactRecoveryRate recovered eligible)⟩ := by
  rw [computeFinancialMetrics, zipStrict_of_length_eq h]
  rfl

/-! ### Sums of amounts -/

theorem amounts_nonneg {pairs : List (SyntheticCase × BaselineDecision)} :
    ∀ amount ∈ pairs.map (fun pair => pair.1.input.amount), 0 ≤ amount := by
  intro amount hamount
  obtain ⟨pair, -, rfl⟩ := List.mem_map.mp hamount
  exact pair.1.input.amount_gt.le

theorem sumAmounts_nonneg (pairs : List (SyntheticCase × BaselineDecision)) :
    0 ≤ sumAmounts pairs :=
  List.sum_nonneg amounts_nonneg

/-- Amounts are positive, so fewer pairs have no more. -/
theorem sumAmounts_le {pairs pairs' : List (SyntheticCase × BaselineDecision)}
    (h : pairs.Sublist pairs') : sumAmounts pairs ≤ sumAmounts pairs' :=
  (h.map _).sum_le_sum amounts_nonneg

theorem sumAmounts_zip {cases : List SyntheticCase} {decisions : List BaselineDecision}
    (h : cases.length ≤ decisions.length) :
    sumAmounts (cases.zip decisions) = (cases.map fun c => c.input.amount).sum := by
  have hfst : (cases.zip decisions).map (fun pair => pair.1.input.amount) =
      ((cases.zip decisions).map Prod.fst).map fun c => c.input.amount := by
    rw [List.map_map]
    rfl
  rw [sumAmounts, hfst, List.map_fst_zip h]

theorem exactRecoveryRate_mem {recovered eligible : ℤ} (hrecovered : 0 ≤ recovered)
    (hle : recovered ≤ eligible) :
    0 ≤ exactRecoveryRate recovered eligible ∧ exactRecoveryRate recovered eligible ≤ 1 := by
  rw [exactRecoveryRate]
  split
  · have heligible : (0 : ℚ) ≤ eligible := Int.cast_nonneg (hrecovered.trans hle)
    exact ⟨div_nonneg (Int.cast_nonneg hrecovered) heligible,
      div_le_one_of_le₀ (Int.cast_le.mpr hle) heligible⟩
  · exact ⟨le_rfl, zero_le_one⟩

/-! ### What is recovered -/

/-- What the truths of a dataset have in common. -/
theorem DrawnFor.pursued_of_recovered {count : ℕ} {cases : List SyntheticCase}
    (h : DrawnFor count cases) {pair : SyntheticCase × BaselineDecision} (hmem : pair.1 ∈ cases)
    (hrecovered : Recovered pair) : Pursued pair := by
  obtain ⟨hexpected, hrecoverable⟩ := hrecovered
  rw [Pursued, hexpected]
  rcases h.pursued pair.1 hmem hrecoverable with hretry | hlink
  · rw [hretry]
    decide
  · rw [hlink]
    decide

/-- What counts as recovered counts as pursued before. -/
theorem DrawnFor.filter_sublist {count : ℕ} {cases : List SyntheticCase}
    (h : DrawnFor count cases) (decisions : List BaselineDecision) :
    ((cases.zip decisions).filter fun pair => Recovered pair).Sublist
      ((cases.zip decisions).filter fun pair => Pursued pair) := by
  have hboth : (cases.zip decisions).filter (fun pair => Recovered pair) =
      ((cases.zip decisions).filter fun pair => Pursued pair).filter fun pair => Recovered pair := by
    rw [List.filter_filter]
    refine List.filter_congr fun pair hpair => ?_
    have himp : Recovered pair → Pursued pair :=
      h.pursued_of_recovered (List.of_mem_zip hpair).1
    by_cases hrecovered : Recovered pair
    · simp [hrecovered, himp hrecovered]
    · simp [hrecovered]
  rw [hboth]
  exact List.filter_sublist

/-- **What is recovered is never more than what was pursued.** Whatever is drawn for a dataset and
whatever a strategy decides on its cases. -/
theorem computeFinancialMetrics_bounded (R : Random) {count : ℤ} (seed : ℤ) (generatedAt : String)
    (hcount : 1 ≤ count) : ∃ dataset, buildDataset R count seed generatedAt = .ok dataset ∧
      ∀ decisions : List BaselineDecision, dataset.cases.length = decisions.length →
        ∃ metrics, computeFinancialMetrics dataset.cases decisions = some metrics ∧
          0 ≤ metrics.recoveredRevenue ∧ metrics.recoveredRevenue ≤ metrics.eligibleRevenue ∧
          metrics.eligibleRevenue ≤ metrics.totalRevenueAtRisk ∧
          0 ≤ exactRecoveryRate metrics.recoveredRevenue metrics.eligibleRevenue ∧
          exactRecoveryRate metrics.recoveredRevenue metrics.eligibleRevenue ≤ 1 ∧
          metrics.recoveryRate =
            roundTo 4 (exactRecoveryRate metrics.recoveredRevenue metrics.eligibleRevenue) := by
  obtain ⟨cases, hdrawn, hbuilt⟩ := buildDataset_drawn R seed generatedAt hcount
  refine ⟨_, hbuilt, fun decisions hlength => ?_⟩
  have hrecovered := sumAmounts_nonneg ((cases.zip decisions).filter fun pair => Recovered pair)
  have hle := sumAmounts_le (hdrawn.filter_sublist decisions)
  have htotal := sumAmounts_le (List.filter_sublist (l := cases.zip decisions)
    (p := fun pair => decide (Pursued pair)))
  rw [sumAmounts_zip hlength.le] at htotal
  have hrate := exactRecoveryRate_mem hrecovered hle
  exact ⟨_, computeFinancialMetrics_eq hlength, hrecovered, hle, htotal, hrate.1, hrate.2, rfl⟩

/-- A decision to retry. -/
def retryDecision : BaselineDecision := ⟨.retryPayment, 9 / 10, "Transient failure."⟩

/-- One case of each scenario, and decisions to retry them all: some are recovered, and more
were pursued. -/
theorem computeFinancialMetrics_bounded_six : ∃ dataset metrics,
    buildDataset .first 6 7 "" = .ok dataset ∧
      computeFinancialMetrics dataset.cases (List.replicate 6 retryDecision) = some metrics ∧
      0 < metrics.recoveredRevenue ∧ metrics.recoveredRevenue < metrics.eligibleRevenue ∧
      0 ≤ metrics.recoveredRevenue ∧ metrics.recoveredRevenue ≤ metrics.eligibleRevenue ∧
      metrics.eligibleRevenue ≤ metrics.totalRevenueAtRisk ∧
      0 ≤ exactRecoveryRate metrics.recoveredRevenue metrics.eligibleRevenue ∧
      exactRecoveryRate metrics.recoveredRevenue metrics.eligibleRevenue ≤ 1 ∧
      metrics.recoveryRate =
        roundTo 4 (exactRecoveryRate metrics.recoveredRevenue metrics.eligibleRevenue) := by
  obtain ⟨dataset, hbuilt, hbounded⟩ :=
    computeFinancialMetrics_bounded .first 7 "" (show (1 : ℤ) ≤ 6 by decide)
  have hlength : ∀ d ∈ (buildDataset .first 6 7 "").toOption,
      d.cases.length = (List.replicate 6 retryDecision).length := by decide +kernel
  have hsome : ∀ d ∈ (buildDataset .first 6 7 "").toOption,
      ∀ m ∈ computeFinancialMetrics d.cases (List.replicate 6 retryDecision),
        0 < m.recoveredRevenue ∧ m.recoveredRevenue < m.eligibleRevenue := by decide +kernel
  have hmem : dataset ∈ (buildDataset .first 6 7 "").toOption := by
    rw [hbuilt]
    rfl
  obtain ⟨metrics, hmetrics, hall⟩ := hbounded _ (hlength dataset hmem)
  obtain ⟨hpos, hlt⟩ := hsome dataset hmem metrics hmetrics
  exact ⟨dataset, metrics, hbuilt, hmetrics, hpos, hlt, hall⟩

end RecoverAI.Evaluation
