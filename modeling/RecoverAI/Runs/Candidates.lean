import RecoverAI.Framework.Selection
import RecoverAI.Models.Ordering
import RecoverAI.Runs.Alone
import RecoverAI.Runs.Schedules
import RecoverAI.Services.Lone

/-!
# The candidates of a cycle

Which cases a cycle selects for diagnosis. The pages it reads are merged status by status,
and each of them starts with the newest case (`Db.queue`), so an older case is left out for
a newer one as soon as the limit cuts through cases of different ages. It is not exactly
when the ages fit the statuses (`AgesFit`).
-/

namespace RecoverAI

open Interleave Service

variable {t : Tid} {db : Db} {sts : List Stmt} {us : List Uuid} {limit : ℕ}

/-! ### What is selected -/

/-- The cases with a status as `list_paginated` orders them, with a ranking of those that
were created at the same time. -/
def Db.page (db : Db) (status : RecoveryCaseStatus) (ranking : List Uuid) : List RecoveryCase :=
  orderedBy (fun r => -r.createdAt) ranking (db.recoveryCases.filter fun r => r.status = status)

/-- Everything there is to diagnose, in the order in which it is selected. -/
def Db.queue (db : Db) : List RecoveryCaseStatus → List (List Uuid) → List RecoveryCase
  | status :: statuses, ranking :: rankings => db.page status ranking ++ db.queue statuses rankings
  | _, _ => []

/-- The pages add up to the first of the queue, by induction on the statuses. -/
theorem yields_collectCases {statuses : List RecoveryCaseStatus} {collected : List Uuid}
    (hlimit : collected.length ≤ limit) :
    Yields t (collectCases limit statuses collected) db [] us fun ids _ _ _ =>
      ∃ rankings : List (List Uuid), rankings.length = statuses.length ∧
        ids = collected ++
          ((db.queue statuses rankings).take (limit - collected.length)).map RecoveryCase.id := by
  induction statuses generalizing collected with
  | nil => exact yields_pure ⟨[], rfl, by simp [Db.queue]⟩
  | cons status statuses ih =>
    rw [collectCases]
    by_cases hfull : collected.length ≥ limit
    · rw [if_pos hfull]
      refine yields_pure ⟨List.replicate (statuses.length + 1) [], by simp, ?_⟩
      rw [Nat.sub_eq_zero_of_le hfull, List.take_zero, List.map_nil, List.append_nil]
    · rw [if_neg hfull]
      refine Yields.bind (yields_select fun ranking => ?_)
      have hlength : (collected ++ ((db.page status ranking).take
          (limit - collected.length)).map RecoveryCase.id).length ≤ limit := by
        rw [List.length_append, List.length_map, List.length_take]
        omega
      refine (ih hlength).mono ?_
      rintro ids db' sts' us' ⟨rankings, hrankings, rfl⟩
      refine ⟨ranking :: rankings, by rw [List.length_cons, List.length_cons, hrankings], ?_⟩
      rw [Db.queue, List.take_append, List.map_append, List.append_assoc, List.length_append,
        List.length_map, List.length_take]
      congr 4
      omega

/-- So a cycle selects the first of the queue. -/
theorem yields_casesReadyForDiagnosis :
    Yields t (casesReadyForDiagnosis limit) db [] us fun ids _ _ _ =>
      ∃ rankings : List (List Uuid), rankings.length = readyForDiagnosis.length ∧
        ids = ((db.queue readyForDiagnosis rankings).take limit).map RecoveryCase.id := by
  refine Yields.bind ((yields_collectCases (Nat.zero_le limit)).mono ?_)
  rintro ids db' sts' us' ⟨rankings, hrankings, rfl⟩
  refine yields_pure ⟨rankings, hrankings, ?_⟩
  rw [List.nil_append, List.length_nil, Nat.sub_zero, List.take_of_length_le]
  rw [List.length_map, List.length_take]
  exact Nat.min_le_left _ _

/-! ### The queue -/

/-- The cases with one of some statuses. -/
def Db.casesIn (db : Db) (statuses : List RecoveryCaseStatus) : List RecoveryCase :=
  db.recoveryCases.filter fun r => r.status ∈ statuses

/-- When the status of a case has its turn. -/
def RecoveryCase.turn (r : RecoveryCase) : ℕ := readyForDiagnosis.idxOf r.status

/-- Ahead in the queue: the status has its turn before, or it is the same and the case is no
older. -/
def Ahead (r r' : RecoveryCase) : Prop :=
  r.turn < r'.turn ∨ (r.turn = r'.turn ∧ r'.createdAt ≤ r.createdAt)

theorem mem_page {status : RecoveryCaseStatus} {ranking : List Uuid} {r : RecoveryCase} :
    r ∈ db.page status ranking ↔ r ∈ db.recoveryCases ∧ r.status = status := by
  rw [Db.page, mem_orderedBy, List.mem_filter, decide_eq_true_eq]

/-- The queue has every case with one of its statuses, by induction on them. -/
theorem queue_perm {statuses : List RecoveryCaseStatus} {rankings : List (List Uuid)}
    (hlength : rankings.length = statuses.length) (hnodup : statuses.Nodup) :
    (db.queue statuses rankings).Perm (db.casesIn statuses) := by
  induction statuses generalizing rankings with
  | nil =>
    rw [List.length_nil, List.length_eq_zero_iff] at hlength
    rw [hlength, Db.casesIn, List.filter_eq_nil_iff.mpr fun r _ => by simp]
    exact List.Perm.nil
  | cons status statuses ih =>
    obtain ⟨hstatus, hnodup⟩ := List.nodup_cons.mp hnodup
    cases rankings with
    | nil => cases hlength
    | cons ranking rankings =>
      have hfirst : (db.casesIn (status :: statuses)).filter (fun r => decide (r.status = status)) =
          db.recoveryCases.filter fun r => r.status = status := by
        rw [Db.casesIn, List.filter_filter]
        refine List.filter_congr fun r _ => ?_
        by_cases h : r.status = status <;> simp [h]
      have hrest : (db.casesIn (status :: statuses)).filter (fun r => !decide (r.status = status)) =
          db.casesIn statuses := by
        rw [Db.casesIn, Db.casesIn, List.filter_filter]
        refine List.filter_congr fun r _ => ?_
        by_cases h : r.status = status
        · simp [h, hstatus]
        · simp [h]
      calc db.queue (status :: statuses) (ranking :: rankings)
          = db.page status ranking ++ db.queue statuses rankings := rfl
        _ |>.Perm _ := (orderedBy_perm _ _ _).append (ih (Nat.succ.inj hlength) hnodup)
        _ |>.Perm _ := by
          rw [← hfirst, ← hrest]
          exact List.filter_append_perm _ _

/-- And it is in order. -/
theorem pairwise_queue {statuses : List RecoveryCaseStatus} {rankings : List (List Uuid)}
    (hlength : rankings.length = statuses.length)
    (hturns : statuses.Pairwise fun s s' =>
      readyForDiagnosis.idxOf s < readyForDiagnosis.idxOf s') :
    (db.queue statuses rankings).Pairwise Ahead := by
  induction statuses generalizing rankings with
  | nil =>
    rw [List.length_nil, List.length_eq_zero_iff] at hlength
    rw [hlength]
    exact List.Pairwise.nil
  | cons status statuses ih =>
    obtain ⟨hstatus, hturns⟩ := List.pairwise_cons.mp hturns
    cases rankings with
    | nil => cases hlength
    | cons ranking rankings =>
      have hnodup : statuses.Nodup := hturns.imp fun hlt heq => absurd (heq ▸ hlt) (lt_irrefl _)
      refine List.pairwise_append.mpr ⟨?_, ih (Nat.succ.inj hlength) hturns, fun r hr r' hr' => ?_⟩
      · refine (pairwise_orderedBy _ _ _).imp_of_mem fun {r r'} hr hr' hle => .inr ⟨?_, ?_⟩
        · rw [RecoveryCase.turn, RecoveryCase.turn, (mem_page.mp hr).2, (mem_page.mp hr').2]
        · exact neg_le_neg_iff.mp hle
      · have hmem := (queue_perm (Nat.succ.inj hlength) hnodup).mem_iff.mp hr'
        rw [Db.casesIn, List.mem_filter, decide_eq_true_eq] at hmem
        left
        rw [RecoveryCase.turn, (mem_page.mp hr).2]
        exact hstatus _ hmem.2

/-! ### Oldest first -/

/-- No diagnosable case that is left out was created before a case that is selected. -/
def OldestFirst (db : Db) (ids : List Uuid) : Prop :=
  ∀ r ∈ db.casesIn readyForDiagnosis, r.id ∉ ids →
    ∀ r' ∈ db.casesIn readyForDiagnosis, r'.id ∈ ids → r'.createdAt ≤ r.createdAt

/-- The ages fit the statuses: let the status of one case have its turn no later than that of
another one, let the limit not be used up before the first status has its turn, and let it be
used up before the second one is through; then the first case is no newer. -/
def AgesFit (cases : List RecoveryCase) (limit : ℕ) : Prop :=
  ∀ r ∈ cases, ∀ r' ∈ cases, r.turn ≤ r'.turn →
    cases.countP (fun c => c.turn < r.turn) < limit →
    limit < cases.countP (fun c => c.turn ≤ r'.turn) → r.createdAt ≤ r'.createdAt

section Queue

variable {queue : List RecoveryCase}

theorem initial_lt (h : queue.Pairwise Ahead) (n : ℕ) :
    queue.Pairwise fun r r' => decide (r'.turn < n) → decide (r.turn < n) := by
  refine h.imp fun {r r'} hahead hlt => ?_
  rw [decide_eq_true_eq] at hlt ⊢
  rcases hahead with hahead | ⟨hahead, -⟩
  · exact hahead.trans hlt
  · exact hahead ▸ hlt

theorem initial_le (h : queue.Pairwise Ahead) (n : ℕ) :
    queue.Pairwise fun r r' => decide (r'.turn ≤ n) → decide (r.turn ≤ n) := by
  refine h.imp fun {r r'} hahead hle => ?_
  rw [decide_eq_true_eq] at hle ⊢
  rcases hahead with hahead | ⟨hahead, -⟩
  · exact hahead.le.trans hle
  · exact hahead ▸ hle

/-- The first of a queue in order are its oldest exactly when the ages fit the statuses. -/
theorem first_oldest_iff (h : queue.Pairwise Ahead) :
    (∀ r ∈ queue.take limit, ∀ r' ∈ queue.drop limit, r.createdAt ≤ r'.createdAt) ↔
      AgesFit queue limit := by
  constructor
  · intro holdest r hr r' hr' hturn hahead hthrough
    -- the newest case of the first status is selected, the oldest of the second one is not
    obtain ⟨c, hc, hcturn, hnewest⟩ :=
      exists_mem_take (initial_lt h r.turn) h hahead hr (by simp)
    obtain ⟨c', hc', hcturn', holdest'⟩ :=
      exists_mem_drop (initial_le h r'.turn) h hthrough hr' (by simp)
    rw [decide_eq_true_eq] at hcturn hcturn'
    have hfirst : r.createdAt ≤ c.createdAt := by
      rcases hnewest with rfl | hlt | ⟨-, hle⟩
      · exact le_rfl
      · exact absurd hlt hcturn
      · exact hle
    have hlast : c'.createdAt ≤ r'.createdAt := by
      rcases holdest' with rfl | hlt | ⟨-, hle⟩
      · exact le_rfl
      · exact absurd hlt (not_lt_of_ge hcturn')
      · exact hle
    calc r.createdAt ≤ c.createdAt := hfirst
      _ ≤ c'.createdAt := holdest c hc c' hc'
      _ ≤ r'.createdAt := hlast
  · intro hfit r hr r' hr'
    have hturn : r.turn ≤ r'.turn := by
      rcases h.rel_of_mem_take_of_mem_drop hr hr' with hlt | ⟨heq, -⟩
      · exact hlt.le
      · exact heq.le
    refine hfit r (List.mem_of_mem_take hr) r' (List.mem_of_mem_drop hr') hturn ?_ ?_
    · exact countP_lt_of_mem_take (initial_lt h r.turn) hr (by simp)
    · exact lt_countP_of_mem_drop (initial_le h r'.turn) hr' (by simp)

end Queue

theorem agesFit_congr {cases cases' : List RecoveryCase} (h : cases.Perm cases') :
    AgesFit cases limit ↔ AgesFit cases' limit := by
  unfold AgesFit
  simp only [h.mem_iff, h.countP_eq]

/-- **When a cycle selects the oldest first.** Whatever the cases and the limit, the selection
returns, and it leaves out no case for a newer one exactly when the ages fit the statuses. -/
theorem oldestFirst_iff {s s' : State} {is is' : List Input} {r : Except Raised (List Uuid)}
    (hs : Idle s)
    (h : machine.solo t (casesReadyForDiagnosis limit).run s is = some (r, s', is')) :
    ∃ ids, r = .ok ids ∧
      (OldestFirst s.db ids ↔ AgesFit (s.db.casesIn readyForDiagnosis) limit) := by
  obtain ⟨ids, -, -, rfl, -, rankings, hlength, rfl⟩ :=
    yields_casesReadyForDiagnosis s is (Txns.eq_only hs.pending t) rfl r s' is' h
  refine ⟨_, rfl, ?_⟩
  have hperm : (s.db.queue readyForDiagnosis rankings).Perm (s.db.casesIn readyForDiagnosis) :=
    queue_perm hlength (by decide)
  have hahead : (s.db.queue readyForDiagnosis rankings).Pairwise Ahead :=
    pairwise_queue hlength (by decide)
  rw [← agesFit_congr hperm, ← first_oldest_iff hahead]
  set queue := s.db.queue readyForDiagnosis rankings
  have hids : (queue.map RecoveryCase.id).Nodup := by
    have hcases : ((s.db.casesIn readyForDiagnosis).map RecoveryCase.id).Nodup :=
      hs.distinct.caseId.sublist (List.filter_sublist.map _)
    exact (hperm.map _).nodup_iff.mpr hcases
  -- a case is selected by its id
  have hselected : ∀ r ∈ queue,
      r.id ∈ (queue.take limit).map RecoveryCase.id ↔ r ∈ queue.take limit := by
    intro r hr
    refine ⟨fun hmem => ?_, List.mem_map_of_mem⟩
    obtain ⟨r', hr', hid⟩ := List.mem_map.mp hmem
    rwa [← List.inj_on_of_nodup_map hids (List.mem_of_mem_take hr') hr hid]
  have hleft : ∀ r ∈ queue, r.id ∉ (queue.take limit).map RecoveryCase.id ↔ r ∈ queue.drop limit := by
    intro r hr
    have hsplit := List.take_append_drop limit queue
    rw [hselected r hr]
    constructor
    · intro hout
      rw [← hsplit, List.mem_append] at hr
      exact hr.resolve_left hout
    · intro hdrop htake
      have hnodup := List.Nodup.of_map _ hids
      rw [← hsplit] at hnodup
      exact List.disjoint_of_nodup_append hnodup htake hdrop
  constructor
  · intro holdest r hr r' hr'
    have hmem := List.mem_of_mem_take hr
    have hmem' := List.mem_of_mem_drop hr'
    exact holdest r' (hperm.mem_iff.mp hmem') ((hleft r' hmem').mpr hr') r (hperm.mem_iff.mp hmem)
      ((hselected r hmem).mpr hr)
  · intro hfirst r hr hout r' hr' hin
    have hmem := hperm.mem_iff.mpr hr
    have hmem' := hperm.mem_iff.mpr hr'
    exact hfirst r' ((hselected r' hmem').mp hin) r ((hleft r hmem).mp hout)

namespace Sample

/-- A payment ingested as case `c` at a time. -/
def ingestAt (u p c : Uuid) (time : Time) : List Input :=
  [.uuid u, .go, .uuid p, .time time, .time time, .go] ++ audit ++ [.uuid c, .time time, .go] ++
    audit ++ [.go]

/-- An old case, and one that comes in later. -/
def twoAges : List Action :=
  alone 0 (.ingest request "c") (ingestAt 1 2 3 0) ++
    alone 1 (.ingest request "c") (ingestAt 4 5 6 60)

/-- The selection with a limit, where one page is enough. -/
def selection (limit : ℕ) : Option (Except Raised (List Uuid) × State × List Input) :=
  machine.solo 2 (casesReadyForDiagnosis limit).run (World.empty.after twoAges).shared [.ranking []]

theorem twoAges_idle : Idle (World.empty.after twoAges).shared :=
  Reachable.idle (World.reachable_after _) (by decide +kernel)

end Sample

set_option maxRecDepth 10000 in
/-- With room for both none is passed over. -/
theorem oldestFirst_iff_twoAges : ∃ ids, (Sample.selection 2).map (fun x => x.1.toOption) = some (some ids) ∧
    OldestFirst (World.empty.after Sample.twoAges).shared.db ids := by
  obtain ⟨⟨r, s', is'⟩, h⟩ := Option.isSome_iff_exists.mp
    (show (Sample.selection 2).isSome by decide +kernel)
  obtain ⟨ids, rfl, hiff⟩ := oldestFirst_iff Sample.twoAges_idle h
  refine ⟨ids, by rw [h]; rfl, hiff.mpr ?_⟩
  unfold AgesFit
  decide +kernel

set_option maxRecDepth 10000 in
/-- With room for one the newer case is selected, and the old one is left out. -/
theorem newest_selected : Reachable (World.empty.after Sample.twoAges) ∧
    (World.empty.after Sample.twoAges).shared.db.recoveryCases.map
      (fun r => (r.id, r.status, r.createdAt)) = [(3, .discovered, 0), (6, .discovered, 60)] ∧
    (Sample.selection 1).map (fun x => x.1.toOption) = some (some [6]) ∧
    ¬ OldestFirst (World.empty.after Sample.twoAges).shared.db [6] := by
  refine ⟨World.reachable_after _, by decide +kernel, by decide +kernel, ?_⟩
  unfold OldestFirst
  decide +kernel

end RecoverAI
