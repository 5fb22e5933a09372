import RecoverAI.Evaluation.Scenarios
import Mathlib.Data.List.Nodup

/-!
# Datasets

`evaluation/generators/build_dataset.py`: a dataset has its cases spread over the scenarios as
evenly as possible and in an order that is drawn. Which names it has depends on its size alone,
and more cases only add names (`caseIds_subset`).
-/

namespace RecoverAI.Evaluation

open Python

structure Dataset where
  seed : ℤ
  count : ℕ
  generatedAt : String
  cases : List SyntheticCase

structure ValueError where
  message : String
  deriving DecidableEq, Repr

/-- `list(ScenarioType)` -/
def scenarioTypes : List ScenarioType :=
  [.temporaryFailure, .repeatedFailure, .customerSideFailure, .highValue, .previouslyContacted,
    .ambiguous]

/-- `per_scenario_counts` -/
def perScenarioCounts (count : ℕ) : List (ScenarioType × ℕ) :=
  let base := count / scenarioTypes.length
  let remainder := count % scenarioTypes.length
  scenarioTypes.zipIdx.map fun (scenario, i) => (scenario, base + if i < remainder then 1 else 0)

/-- The loops over the scenarios and, for each, over its indices. -/
def generateCases (R : Random) : List (ScenarioType × ℕ) → StateM R.State (List SyntheticCase)
  | [] => return []
  | (scenario, scenarioCount) :: rest => do
    let cases ← (List.range scenarioCount).mapM (scenarioGenerators R scenario)
    return cases ++ (← generateCases R rest)

/-- All the draws of a dataset. -/
def drawCases (R : Random) (count : ℕ) : StateM R.State (List SyntheticCase) := do
  let cases ← generateCases R (perScenarioCounts count)
  return (← R.shuffle cases).1

def buildDataset (R : Random) (count seed : ℤ) (generatedAt : String) :
    Except ValueError Dataset :=
  if count < 1 then .error ⟨"count must be >= 1"⟩
  else
    let cases := (drawCases R count.toNat (R.seed seed)).1
    .ok { seed, count := cases.length, generatedAt, cases }

/-! ### How many of each scenario -/

/-- The share of a scenario. -/
def share (count : ℕ) : ScenarioType → ℕ
  | .temporaryFailure => (count + 5) / 6
  | .repeatedFailure => (count + 4) / 6
  | .customerSideFailure => (count + 3) / 6
  | .highValue => (count + 2) / 6
  | .previouslyContacted => (count + 1) / 6
  | .ambiguous => count / 6

theorem share_mono {m n : ℕ} (h : m ≤ n) (scenario : ScenarioType) :
    share m scenario ≤ share n scenario := by
  cases scenario <;> exact Nat.div_le_div_right (by omega)

theorem share_le_add_one (count : ℕ) (a b : ScenarioType) : share count a ≤ share count b + 1 := by
  cases a <;> cases b <;> simp only [share] <;> omega

/-- The division with its remainder comes to the shares. -/
theorem perScenarioCounts_eq (count : ℕ) :
    perScenarioCounts count = scenarioTypes.map fun scenario => (scenario, share count scenario) := by
  have hshare (i : ℕ) (hi : i < 6) :
      count / 6 + (if i < count % 6 then 1 else 0) = (count + (5 - i)) / 6 := by
    split <;> omega
  simp only [perScenarioCounts, scenarioTypes, List.length_cons, List.length_nil, List.zipIdx_cons,
    List.zipIdx_nil, List.map_cons, List.map_nil, Nat.zero_add, Nat.reduceAdd, share]
  rw [hshare 0 (by decide), hshare 1 (by decide), hshare 2 (by decide), hshare 3 (by decide),
    hshare 4 (by decide), hshare 5 (by decide)]
  rfl

/-! ### The plan -/

/-- The scenario and the index of each case, in the order of the loops. -/
def plan (counts : List (ScenarioType × ℕ)) : List (ScenarioType × ℕ) :=
  counts.flatMap fun entry => (List.range entry.2).map fun index => (entry.1, index)

/-- The plan of a dataset. -/
def casePlan (count : ℕ) : List (ScenarioType × ℕ) := plan (perScenarioCounts count)

theorem mem_casePlan {count : ℕ} {scenario : ScenarioType} {index : ℕ} :
    (scenario, index) ∈ casePlan count ↔ index < share count scenario := by
  have hall : scenario ∈ scenarioTypes := by cases scenario <;> decide
  simp only [casePlan, plan, perScenarioCounts_eq, List.mem_flatMap, List.mem_map, List.mem_range]
  constructor
  · rintro ⟨entry, ⟨a, -, rfl⟩, i, hi, heq⟩
    obtain ⟨rfl, rfl⟩ := Prod.mk.inj heq
    exact hi
  · exact fun hindex => ⟨_, ⟨scenario, hall, rfl⟩, index, hindex, rfl⟩

theorem nodup_casePlan (count : ℕ) : (casePlan count).Nodup := by
  rw [casePlan, plan, perScenarioCounts_eq, List.flatMap_map]
  refine List.nodup_flatMap.mpr ⟨fun scenario _ => ?_, ?_⟩
  · exact List.nodup_range.map fun i j h => (Prod.mk.inj h).2
  · have hdistinct : scenarioTypes.Pairwise fun a b => a ≠ b := by decide
    refine hdistinct.imp fun {a b} hne => ?_
    intro entry ha hb
    obtain ⟨i, -, rfl⟩ := List.mem_map.mp ha
    obtain ⟨j, -, heq⟩ := List.mem_map.mp hb
    exact hne (Prod.mk.inj heq).1.symm

/-- As many cases of a scenario as its share. -/
theorem count_casePlan (count : ℕ) (scenario : ScenarioType) :
    ((casePlan count).map Prod.fst).count scenario = share count scenario := by
  have hreplicate : (casePlan count).map Prod.fst =
      scenarioTypes.flatMap fun a => List.replicate (share count a) a := by
    rw [casePlan, plan, perScenarioCounts_eq, List.flatMap_map, List.map_flatMap]
    refine List.flatMap_congr fun a _ => ?_
    rw [List.map_map, Function.comp_def, List.map_const', List.length_range]
  rw [hreplicate]
  cases scenario <;> simp [scenarioTypes, List.count_replicate]

theorem length_casePlan (count : ℕ) : (casePlan count).length = count := by
  simp only [casePlan, plan, perScenarioCounts_eq, scenarioTypes, List.map_cons, List.map_nil,
    List.flatMap_cons, List.flatMap_nil, List.length_append, List.length_map, List.length_range,
    List.length_nil, share]
  -- the shares by the remainder, one at a time
  have hmod : count % 6 < 6 := Nat.mod_lt _ (by decide)
  have hdiv := Nat.div_add_mod count 6
  generalize count / 6 = base at *
  generalize count % 6 = remainder at *
  have hcases : remainder = 0 ∨ remainder = 1 ∨ remainder = 2 ∨ remainder = 3 ∨ remainder = 4 ∨
      remainder = 5 := by omega
  rcases hcases with rfl | rfl | rfl | rfl | rfl | rfl <;> omega

/-! ### What is built -/

/-- What goes along with a list has what its entries determine. -/
theorem map_eq_of_forall₂ {α β γ : Type} {P : α → β → Prop} {f : α → γ} {g : β → γ}
    (hfg : ∀ a b, P a b → g b = f a) {as : List α} {bs : List β} (h : List.Forall₂ P as bs) :
    bs.map g = as.map f := by
  induction h with
  | nil => rfl
  | cons hab _ ih => rw [List.map_cons, List.map_cons, hfg _ _ hab, ih]

theorem exists_of_forall₂ {α β : Type} {P : α → β → Prop} {as : List α} {bs : List β} {b : β}
    (h : List.Forall₂ P as bs) (hb : b ∈ bs) : ∃ a ∈ as, P a b := by
  induction h with
  | nil => cases hb
  | cons hab _ ih =>
    rcases List.mem_cons.mp hb with rfl | hb
    · exact ⟨_, List.mem_cons_self, hab⟩
    · obtain ⟨a, ha, hab⟩ := ih hb
      exact ⟨a, List.mem_cons_of_mem _ ha, hab⟩

theorem generateCases_generated (R : Random) (counts : List (ScenarioType × ℕ)) :
    Always (generateCases R counts) fun cases =>
      List.Forall₂ (fun entry c => Generated entry.1 entry.2 c) (plan counts) cases := by
  induction counts with
  | nil => exact .pure .nil
  | cons entry counts ih =>
    obtain ⟨scenario, scenarioCount⟩ := entry
    refine (Always.mapM (scenarioGenerators_generated scenario) _).bind fun cases hcases => ?_
    refine ih.bind fun rest hrest => .pure ?_
    have hfirst : List.Forall₂ (fun entry c => Generated entry.1 entry.2 c)
        ((List.range scenarioCount).map fun index => (scenario, index)) cases :=
      List.forall₂_map_left_iff.mpr hcases
    rw [plan, List.flatMap_cons, ← plan]
    exact List.rel_append hfirst hrest

/-- The cases that are drawn follow the plan, but for their order. -/
theorem drawCases_generated (R : Random) (count : ℕ) : Always (drawCases R count) fun cases =>
    ∃ ordered, cases.Perm ordered ∧
      List.Forall₂ (fun entry c => Generated entry.1 entry.2 c) (casePlan count) ordered :=
  (generateCases_generated R _).bind fun ordered hordered =>
    .draw fun shuffled => .pure ⟨ordered, shuffled.2, hordered⟩

/-- The names of the cases. -/
def caseIds (cases : List SyntheticCase) : List String := cases.map fun c => c.input.caseId

/-- A list of cases that has been drawn for a dataset of some size. -/
structure DrawnFor (count : ℕ) (cases : List SyntheticCase) : Prop where
  caseIds : (caseIds cases).Perm ((casePlan count).map fun entry => caseId entry.1 entry.2)
  scenarioTypes : (cases.map fun c => c.input.scenarioType).Perm ((casePlan count).map Prod.fst)
  pursued : ∀ c ∈ cases, c.groundTruth.recoverable = true →
    c.groundTruth.expectedAction = .retryPayment ∨ c.groundTruth.expectedAction = .sendPaymentLink

namespace DrawnFor

variable {count m n : ℕ} {cases cases' : List SyntheticCase}

theorem length_eq (h : DrawnFor count cases) : cases.length = count := by
  have hlength := h.caseIds.length_eq
  rwa [Evaluation.caseIds, List.length_map, List.length_map, length_casePlan] at hlength

theorem nodup (h : DrawnFor count cases) : (Evaluation.caseIds cases).Nodup := by
  refine h.caseIds.nodup_iff.mpr ((nodup_casePlan count).map fun entry entry' heq => ?_)
  exact Prod.ext_iff.mpr (caseId_inj heq)

/-- The scenarios are spread evenly. -/
theorem balanced (h : DrawnFor count cases) (a b : ScenarioType) :
    (cases.map fun c => c.input.scenarioType).count a ≤
      (cases.map fun c => c.input.scenarioType).count b + 1 := by
  rw [h.scenarioTypes.count_eq, h.scenarioTypes.count_eq, count_casePlan, count_casePlan]
  exact share_le_add_one count a b

/-- A larger dataset has the names of a smaller one. -/
theorem caseIds_subset (h : DrawnFor m cases) (h' : DrawnFor n cases') (hmn : m ≤ n) :
    Evaluation.caseIds cases ⊆ Evaluation.caseIds cases' := by
  intro id hid
  obtain ⟨⟨scenario, index⟩, hentry, rfl⟩ := List.mem_map.mp (h.caseIds.mem_iff.mp hid)
  refine h'.caseIds.mem_iff.mpr (List.mem_map.mpr ⟨(scenario, index), ?_, rfl⟩)
  exact mem_casePlan.mpr ((mem_casePlan.mp hentry).trans_le (share_mono hmn scenario))

end DrawnFor

/-- **What a dataset is.** -/
theorem buildDataset_drawn (R : Random) {count : ℤ} (seed : ℤ) (generatedAt : String)
    (hcount : 1 ≤ count) : ∃ cases, DrawnFor count.toNat cases ∧
      buildDataset R count seed generatedAt =
        .ok { seed, count := cases.length, generatedAt, cases } := by
  obtain ⟨ordered, hperm, hplan⟩ := drawCases_generated R count.toNat (R.seed seed)
  refine ⟨_, ⟨?_, ?_, fun c hc => ?_⟩, if_neg (not_lt.mpr hcount)⟩
  · rw [← map_eq_of_forall₂ (fun _ _ h => h.caseId) hplan]
    exact hperm.map _
  · rw [← map_eq_of_forall₂ (fun _ _ h => h.scenarioType) hplan]
    exact hperm.map _
  · obtain ⟨entry, -, hgenerated⟩ := exists_of_forall₂ hplan (hperm.mem_iff.mp hc)
    exact hgenerated.pursued

end RecoverAI.Evaluation
