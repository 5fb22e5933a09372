import RecoverAI.Evaluation.Dataset

/-!
# The held-out split

`evaluation/generators/split.py` holds out the cases whose name hashes to a fraction below a
bound. As nothing else decides, a case is on the same side in every dataset that has it
(`heldOutSplit_stable`). The hash is a parameter.
-/

namespace RecoverAI.Evaluation

open Python

section Split

variable (sha256 : ByteArray → List (Fin 16))

/-- `_hash_fraction`: the first eight digits of `hexdigest()`, over `0xFFFFFFFF`. -/
def hashFraction (caseId : String) : ℚ :=
  let digest := (sha256 caseId.toUTF8).take 8
  roundBinary64 ((digest.foldl (fun n digit => 16 * n + digit.val) 0 : ℕ) / 0xFFFFFFFF)

/-- The body of the loop: the case goes to the end of its bucket. -/
def addCase (holdoutFraction : ℚ) (buckets : List SyntheticCase × List SyntheticCase)
    (c : SyntheticCase) : List SyntheticCase × List SyntheticCase :=
  if hashFraction sha256 c.input.caseId < holdoutFraction then (buckets.1, buckets.2 ++ [c])
  else (buckets.1 ++ [c], buckets.2)

/-- `held_out_split`: what is for development, and what is held out. -/
def heldOutSplit (dataset : Dataset) (holdoutFraction : ℚ) :
    Except ValueError (List SyntheticCase × List SyntheticCase) :=
  if 0 < holdoutFraction ∧ holdoutFraction < 1 then
    .ok (dataset.cases.foldl (addCase sha256 holdoutFraction) ([], []))
  else .error ⟨"holdout_fraction must be between 0 and 1 (exclusive)."⟩

variable {sha256} {f : ℚ}

/-- What the loop has put into the buckets, by induction on what is left. -/
theorem foldl_addCase (cases : List SyntheticCase)
    (buckets : List SyntheticCase × List SyntheticCase) :
    cases.foldl (addCase sha256 f) buckets =
      (buckets.1 ++ cases.filter (fun c => ¬ hashFraction sha256 c.input.caseId < f),
        buckets.2 ++ cases.filter fun c => hashFraction sha256 c.input.caseId < f) := by
  induction cases generalizing buckets with
  | nil => rw [List.filter_nil, List.filter_nil, List.append_nil, List.append_nil]; rfl
  | cons c cases ih =>
    rw [List.foldl_cons, ih]
    by_cases hheld : hashFraction sha256 c.input.caseId < f
    · rw [addCase, if_pos hheld, List.filter_cons_of_neg (by simpa using hheld),
        List.filter_cons_of_pos (by simpa using hheld), List.append_assoc]
      rfl
    · rw [addCase, if_neg hheld, List.filter_cons_of_pos (by simpa using hheld),
        List.filter_cons_of_neg (by simpa using hheld), List.append_assoc]
      rfl

/-- Two lists that a list is taken apart into, in its order. -/
structure Partition (cases development heldOut : List SyntheticCase) : Prop where
  developmentInOrder : development.Sublist cases
  heldOutInOrder : heldOut.Sublist cases
  perm : (development ++ heldOut).Perm cases

theorem heldOutSplit_eq (hf : 0 < f ∧ f < 1) (dataset : Dataset) :
    heldOutSplit sha256 dataset f =
      .ok (dataset.cases.filter (fun c => ¬ hashFraction sha256 c.input.caseId < f),
        dataset.cases.filter fun c => hashFraction sha256 c.input.caseId < f) := by
  rw [heldOutSplit, if_pos hf, foldl_addCase]
  rfl

theorem partition_filter (cases : List SyntheticCase) (p : SyntheticCase → Prop)
    [DecidablePred p] : Partition cases (cases.filter fun c => ¬ p c) (cases.filter fun c => p c) where
  developmentInOrder := List.filter_sublist
  heldOutInOrder := List.filter_sublist
  perm := by
    refine List.perm_append_comm.trans ?_
    simpa only [decide_not] using List.filter_append_perm (fun c => decide (p c)) cases

/-- A name is held out if it hashes below the bound. -/
theorem mem_caseIds_heldOut {cases : List SyntheticCase} {id : String} (hid : id ∈ caseIds cases) :
    id ∈ caseIds (cases.filter fun c => hashFraction sha256 c.input.caseId < f) ↔
      hashFraction sha256 id < f := by
  constructor
  · intro hheld
    obtain ⟨c, hc, rfl⟩ := List.mem_map.mp hheld
    simpa using (List.mem_filter.mp hc).2
  · intro hlt
    obtain ⟨c, hc, rfl⟩ := List.mem_map.mp hid
    exact List.mem_map_of_mem (List.mem_filter.mpr ⟨hc, by simpa using hlt⟩)

end Split

/-- **The dataset and its held-out split are stable.** Whatever is drawn and whatever the hash,
a dataset of `m` cases has `m` cases of different names, its scenarios differ by one case at most,
and its names are among those of every dataset that is no smaller. Either is taken apart in its
order, and a name of both is held out of both or of neither. -/
theorem heldOutSplit_stable (R : Random) (sha256 : ByteArray → List (Fin 16)) {m n : ℤ}
    (s t : ℤ) (generatedAt generatedAt' : String) {f : ℚ} (hm : 1 ≤ m) (hmn : m ≤ n)
    (hf : 0 < f ∧ f < 1) :
    ∃ small large : Dataset, buildDataset R m s generatedAt = .ok small ∧
      buildDataset R n t generatedAt' = .ok large ∧ (small.cases.length : ℤ) = m ∧
      (caseIds small.cases).Nodup ∧
      (∀ a b, (small.cases.map fun c => c.input.scenarioType).count a ≤
        (small.cases.map fun c => c.input.scenarioType).count b + 1) ∧
      caseIds small.cases ⊆ caseIds large.cases ∧
      ∃ development heldOut development' heldOut',
        heldOutSplit sha256 small f = .ok (development, heldOut) ∧
        heldOutSplit sha256 large f = .ok (development', heldOut') ∧
        Partition small.cases development heldOut ∧ Partition large.cases development' heldOut' ∧
        ∀ id ∈ caseIds small.cases, id ∈ caseIds large.cases →
          (id ∈ caseIds heldOut ↔ id ∈ caseIds heldOut') := by
  obtain ⟨cases, hdrawn, hsmall⟩ := buildDataset_drawn R s generatedAt hm
  obtain ⟨cases', hdrawn', hlarge⟩ := buildDataset_drawn R t generatedAt' (hm.trans hmn)
  refine ⟨_, _, hsmall, hlarge, ?_, hdrawn.nodup, hdrawn.balanced,
    hdrawn.caseIds_subset hdrawn' (Int.toNat_le_toNat hmn), ?_⟩
  · rw [hdrawn.length_eq]
    exact Int.toNat_of_nonneg (by omega)
  · refine ⟨_, _, _, _, heldOutSplit_eq hf _, heldOutSplit_eq hf _, partition_filter _ _,
      partition_filter _ _, fun id hid hid' => ?_⟩
    rw [mem_caseIds_heldOut hid, mem_caseIds_heldOut hid']

namespace Sample

/-- The hexadecimal digits of a number of 256 bits. -/
def hexDigits (n : ℕ) : List (Fin 16) :=
  (List.range 64).map fun i => Fin.ofNat 16 (n / 16 ^ (63 - i))

/-- The digests of the names of the first two cases. -/
def digest (text : ByteArray) : List (Fin 16) :=
  if text.data.toList = "temporary_failure_0000".toUTF8.data.toList then
    hexDigits 0x5f91098dca0915fceed967eba0d4da32f1e21305ce408673682ea8700e681cef
  else hexDigits 0xc335c7b8d425020a09912c811887c84cb4657cdba62c79590015fb5c0313c9a0

end Sample

/-- One case, and two of another seed, half held out: the one case is held out of both. -/
theorem heldOutSplit_stable_two : ∃ small large : Dataset,
    buildDataset .first 1 7 "" = .ok small ∧ buildDataset .first 2 8 "" = .ok large ∧
      (small.cases.length : ℤ) = 1 ∧ caseIds small.cases ⊆ caseIds large.cases ∧
      ∃ development heldOut development' heldOut',
        heldOutSplit Sample.digest small (1 / 2) = .ok (development, heldOut) ∧
        heldOutSplit Sample.digest large (1 / 2) = .ok (development', heldOut') ∧
        Partition small.cases development heldOut ∧ Partition large.cases development' heldOut' ∧
        "temporary_failure_0000" ∈ caseIds heldOut ∧ "temporary_failure_0000" ∈ caseIds heldOut' := by
  obtain ⟨small, large, hsmall, hlarge, hlength, -, -, hsubset, development, heldOut, development',
      heldOut', hsplit, hsplit', hpart, hpart', hsame⟩ :=
    heldOutSplit_stable .first Sample.digest (m := 1) (n := 2) (f := 1 / 2) 7 8 "" "" (by decide)
      (by decide) (by decide +kernel)
  -- the smaller dataset is evaluated, the other side follows
  have hmember : ∀ d ∈ (buildDataset .first 1 7 "").toOption,
      "temporary_failure_0000" ∈ caseIds d.cases ∧
        ∀ b ∈ (heldOutSplit Sample.digest d (1 / 2)).toOption,
          "temporary_failure_0000" ∈ caseIds b.2 := by decide +kernel
  have hmem : small ∈ (buildDataset .first 1 7 "").toOption := by
    rw [hsmall]
    rfl
  obtain ⟨hid, hheld⟩ := hmember small hmem
  have hin := hheld (development, heldOut) (by rw [hsplit]; rfl)
  exact ⟨small, large, hsmall, hlarge, hlength, hsubset, development, heldOut, development',
    heldOut', hsplit, hsplit', hpart, hpart', hin, (hsame _ hid (hsubset hid)).mp hin⟩

end RecoverAI.Evaluation
