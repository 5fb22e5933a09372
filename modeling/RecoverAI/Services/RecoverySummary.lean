import RecoverAI.Models.Queries
import Mathlib.Algebra.BigOperators.Group.List.Lemmas
import Mathlib.Algebra.BigOperators.Ring.Finset
import Mathlib.Algebra.Field.Rat
import Mathlib.Algebra.Order.BigOperators.Group.List
import Mathlib.Algebra.Order.Field.Basic

/-!
# The recovery summary

`compute_recovery_summary` (`app/services/recovery_summary_service.py`): the figures of the
dashboard, counted over the rows of one state of the database. The rates and the average
are those before they are rounded.
-/

namespace RecoverAI

open Interleave

/-- `RecoverySummaryRead`. -/
structure RecoverySummary where
  source : String
  generatedAt : Time
  casesTotal : Int
  casesEligible : Int
  casesByStatus : List (String × Int)
  totalRevenueAtRisk : Int
  eligibleRevenue : Int
  confirmedRecoveredRevenue : Int
  outstandingRevenue : Int
  recoveryRate : ℚ
  recoveryAttempts : Int
  successfulPaymentLinksCreated : Int
  averageRecoveryAmount : ℚ
  escalationRate : ℚ
  stopRate : ℚ
  providerFailureRate : ℚ
  deriving DecidableEq, Repr

/-- `select(func.count()).select_from(...).where(...)`. -/
def countRows {ρ : Type} (t : Table ρ) (p : ρ → Bool) : Int := t.countP p

/-- `select(func.coalesce(func.sum(...), 0))`. -/
def sumRows {ρ : Type} (t : Table ρ) (column : ρ → Int) : Int := (t.map column).sum

/-- `a / b if b else 0.0`. -/
def rate (a b : Int) : ℚ := if b = 0 then 0 else a / b

namespace Db

variable (db : Db)

/-- `cases_by_status`: one entry for each status there is a case in. -/
def casesByStatus : List (String × Int) :=
  (db.recoveryCases.map RecoveryCase.status).dedup.map fun status =>
    (status.value, countRows db.recoveryCases fun c => c.status = status)

/-- `cases_by_status.get(status.value, 0)`. -/
def countByStatus (status : RecoveryCaseStatus) : Int :=
  (db.casesByStatus.lookup status.value).getD 0

def eligibleRevenue : Int :=
  sumRows (db.recoveryCases.filter fun c => c.eligible) RecoveryCase.revenueAtRisk

def confirmedRecoveredRevenue : Int := sumRows db.recoveryCases RecoveryCase.recoveredAmount

def recoveredCaseCount : Int := countRows db.recoveryCases fun c => c.recoveredAmount > 0

end Db

/-- `compute_recovery_summary`. -/
def computeRecoverySummary (db : Db) (now : Time) : RecoverySummary :=
  let casesTotal := countRows db.recoveryCases fun _ => true
  let recoveryAttempts := countRows db.recoveryAttempts fun _ => true
  let failedAttempts := countRows db.recoveryAttempts fun a => a.status = .failed
  { source := "live_database"
    generatedAt := now
    casesTotal := casesTotal
    casesEligible := countRows db.recoveryCases fun c => c.eligible
    casesByStatus := db.casesByStatus
    totalRevenueAtRisk := sumRows db.recoveryCases RecoveryCase.revenueAtRisk
    eligibleRevenue := db.eligibleRevenue
    confirmedRecoveredRevenue := db.confirmedRecoveredRevenue
    outstandingRevenue := max 0 (db.eligibleRevenue - db.confirmedRecoveredRevenue)
    recoveryRate := rate db.confirmedRecoveredRevenue db.eligibleRevenue
    recoveryAttempts := recoveryAttempts
    successfulPaymentLinksCreated := countRows db.recoveryAttempts fun a => a.status = .succeeded
    averageRecoveryAmount := rate db.confirmedRecoveredRevenue db.recoveredCaseCount
    escalationRate := rate (db.countByStatus .escalated) casesTotal
    stopRate := rate (db.countByStatus .stopped) casesTotal
    providerFailureRate := rate failedAttempts recoveryAttempts }

/-! ### Counting -/

section Rows

variable {ρ : Type} {t : Table ρ} {p q : ρ → Bool} {f g : ρ → Int}

theorem countRows_true : countRows t (fun _ => true) = t.length := by
  rw [countRows, List.countP_true]

theorem countRows_nonneg : 0 ≤ countRows t p := Int.natCast_nonneg _

theorem countRows_le_length : countRows t p ≤ t.length := Int.ofNat_le.mpr List.countP_le_length

theorem countRows_congr (h : ∀ r ∈ t, p r = q r) : countRows t p = countRows t q := by
  rw [countRows, countRows, List.countP_congr fun r hr => by rw [h r hr]]

/-- Rows that are counted once. -/
theorem countRows_add_le (h : ∀ r ∈ t, p r = true → q r = false) :
    countRows t p + countRows t q ≤ t.length := by
  induction t with
  | nil => simp [countRows]
  | cons r t ih =>
    obtain ⟨hr, ht⟩ := List.forall_mem_cons.mp h
    have hle := ih ht
    simp only [countRows, List.countP_cons, List.length_cons] at hle ⊢
    cases hp : p r with
    | false =>
      rw [if_neg Bool.false_ne_true]
      split <;> omega
    | true =>
      rw [hr hp, if_pos rfl, if_neg Bool.false_ne_true]
      omega

theorem sumRows_le (h : ∀ r ∈ t, f r ≤ g r) : sumRows t f ≤ sumRows t g := List.sum_le_sum h

theorem sumRows_congr (h : ∀ r ∈ t, f r = g r) : sumRows t f = sumRows t g := by
  rw [sumRows, sumRows, List.map_congr_left h]

theorem sumRows_nonneg (h : ∀ r ∈ t, 0 ≤ f r) : 0 ≤ sumRows t f := by
  refine List.sum_nonneg fun x hx => ?_
  obtain ⟨r, hr, rfl⟩ := List.mem_map.mp hx
  exact h r hr

/-- The sum over some rows, as a sum over all. -/
theorem sumRows_filter :
    sumRows (t.filter p) f = sumRows t fun r => if p r then f r else 0 := by
  induction t with
  | nil => rfl
  | cons r t ih =>
    simp only [sumRows, List.filter_cons, List.map_cons, List.sum_cons] at ih ⊢
    split
    · rw [List.map_cons, List.sum_cons, ih]
    · rw [ih, Int.zero_add]

end Rows

theorem rate_mem {a b : Int} (ha : 0 ≤ a) (hab : a ≤ b) : 0 ≤ rate a b ∧ rate a b ≤ 1 := by
  have hb : 0 ≤ b := ha.trans hab
  unfold rate
  split
  · exact ⟨le_refl 0, zero_le_one⟩
  · next hne =>
    have hpos : (0 : ℚ) < b := by exact_mod_cast lt_of_le_of_ne hb (Ne.symm hne)
    have ha' : (0 : ℚ) ≤ a := by exact_mod_cast ha
    have hab' : (a : ℚ) ≤ b := by exact_mod_cast hab
    exact ⟨div_nonneg ha' hpos.le, (div_le_one hpos).mpr hab'⟩

theorem rate_add (a a' b : Int) : rate a b + rate a' b = rate (a + a') b := by
  unfold rate
  split
  · exact add_zero 0
  · push_cast
    rw [add_div]

namespace Db

variable {db : Db}

theorem casesByStatus_sum : (db.casesByStatus.map Prod.snd).sum = db.recoveryCases.length := by
  have hcount : ∀ status, countRows db.recoveryCases (fun c => c.status = status) =
      ((db.recoveryCases.map RecoveryCase.status).count status : ℕ) := by
    intro status
    rw [countRows, List.count, List.countP_map]
    rfl
  have hsum := List.sum_map_count_dedup_eq_length (db.recoveryCases.map RecoveryCase.status)
  rw [casesByStatus, List.map_map]
  calc ((db.recoveryCases.map RecoveryCase.status).dedup.map
        (Prod.snd ∘ fun status => (status.value, countRows db.recoveryCases
          fun c => c.status = status))).sum
      = ((db.recoveryCases.map RecoveryCase.status).dedup.map
          fun status => ((db.recoveryCases.map RecoveryCase.status).count status : Int)).sum := by
        exact congrArg List.sum (List.map_congr_left fun status _ => hcount status)
    _ = (((db.recoveryCases.map RecoveryCase.status).dedup.map
          fun status => (db.recoveryCases.map RecoveryCase.status).count status).sum : ℕ) := by
        rw [Nat.cast_list_sum, List.map_map]
        rfl
    _ = db.recoveryCases.length := by rw [hsum, List.length_map]


theorem value_injective : Function.Injective RecoveryCaseStatus.value := by
  intro status status' h
  cases status <;> cases status' <;> first | rfl | exact absurd h (by decide)

/-- A look-up in the entries, one for each status. -/
theorem lookup_map_value {statuses : List RecoveryCaseStatus} {status : RecoveryCaseStatus}
    (f : RecoveryCaseStatus → Int) :
    (statuses.map fun s => (s.value, f s)).lookup status.value =
      if status ∈ statuses then some (f status) else none := by
  induction statuses with
  | nil => rfl
  | cons s statuses ih =>
    rw [List.map_cons, List.lookup_cons, ih]
    by_cases hs : status = s
    · subst hs
      simp
    · have hvalue : (status.value == s.value) = false :=
        beq_eq_false_iff_ne.mpr fun h => hs (value_injective h)
      simp [hs, hvalue]

/-- A status without an entry has no cases. -/
theorem countByStatus_eq (status : RecoveryCaseStatus) :
    db.countByStatus status = countRows db.recoveryCases fun c => c.status = status := by
  rw [countByStatus, casesByStatus, lookup_map_value]
  split
  · rfl
  · next hnot =>
    rw [List.mem_dedup] at hnot
    have hzero : (db.recoveryCases.countP fun c => c.status = status) = 0 :=
      List.countP_eq_zero.mpr fun c hc hs =>
        hnot (List.mem_map.mpr ⟨c, hc, of_decide_eq_true hs⟩)
    rw [countRows, hzero]
    rfl

end Db

end RecoverAI
