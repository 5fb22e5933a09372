import RecoverAI.Runs.Candidates
import Mathlib.Data.Finset.Card

/-!
# The approved backlog

What a cycle drains after its own cases: the approved ones that it has not handled. The
select asks for as many cases more as there are handled ones, and those are filtered out
afterwards. As a handled case is on the page at most once, the page never comes up short
(`approvedBacklog_complete`).
-/

namespace RecoverAI

open Interleave Service

variable {db : Db} {limit : ℕ} {exclude ranking : List Uuid}

/-- The ids of the approved cases. -/
def Db.approved (db : Db) : Finset Uuid :=
  ((db.recoveryCases.filter fun r => r.status = .approved).map RecoveryCase.id).toFinset

/-- The ids of a page of approved cases, before it is cut. -/
theorem toFinset_page (db : Db) (ranking : List Uuid) :
    ((db.page .approved ranking).map RecoveryCase.id).toFinset = db.approved :=
  List.toFinset_eq_of_perm _ _ ((orderedBy_perm _ _ _).map _)

/-- No case is on it twice. -/
theorem nodup_page (hids : (db.recoveryCases.map RecoveryCase.id).Nodup) (ranking : List Uuid) :
    ((db.page .approved ranking).map RecoveryCase.id).Nodup := by
  have happroved : ((db.recoveryCases.filter fun r => r.status = .approved).map
      RecoveryCase.id).Nodup := hids.sublist (List.filter_sublist.map _)
  exact ((orderedBy_perm _ _ _).map _).nodup_iff.mpr happroved

/-- What `_approved_backlog` makes of the page. -/
def Db.backlog (db : Db) (limit : ℕ) (exclude ranking : List Uuid) : List Uuid :=
  ((((db.page .approved ranking).map RecoveryCase.id).take (limit + exclude.length)).filter
    fun id => id ∉ exclude).take limit

theorem nodup_backlog (hids : (db.recoveryCases.map RecoveryCase.id).Nodup) :
    (db.backlog limit exclude ranking).Nodup :=
  (((nodup_page hids ranking).sublist (List.take_sublist _ _)).filter _).sublist (List.take_sublist _ _)

theorem mem_of_mem_backlog {id : Uuid} (h : id ∈ db.backlog limit exclude ranking) :
    id ∈ db.approved \ exclude.toFinset := by
  obtain ⟨hpage, hout⟩ := List.mem_filter.mp (List.mem_of_mem_take h)
  rw [decide_eq_true_eq] at hout
  rw [Finset.mem_sdiff, List.mem_toFinset, ← toFinset_page db ranking, List.mem_toFinset]
  exact ⟨List.mem_of_mem_take hpage, hout⟩

theorem length_backlog (hids : (db.recoveryCases.map RecoveryCase.id).Nodup) :
    (db.backlog limit exclude ranking).length =
      min limit (db.approved \ exclude.toFinset).card := by
  have hpage := nodup_page hids ranking
  rw [Db.backlog, length_take_filter_take hpage, ← toFinset_page db ranking]
  congr 1
  rw [← List.toFinset_card_of_nodup (hpage.filter _)]
  congr 1
  ext id
  simp

/-- The function reads one page, and nothing else. -/
theorem solo_approvedBacklog (s : State) (t : Tid) (limit : ℕ) (exclude ranking : List Uuid) :
    machine.solo t (approvedBacklog limit exclude).run s [.ranking ranking] =
      some (.ok ((s.view t).backlog limit exclude ranking),
        s.emit t (.selected (.casesByStatus .approved (limit + exclude.length))
          (((s.view t).page .approved ranking).take (limit + exclude.length))), []) := by
  rw [Db.backlog, ← List.map_take]
  rfl

/-- **The backlog is complete up to its limit.** Whatever state it is read in, by whatever
thread, and however cases of equal age are ranked: the ids are distinct, approved and not
excluded, and there are as many of them as there can be, up to the limit. -/
theorem approvedBacklog_complete (s : State) (t : Tid) (limit : ℕ) (exclude ranking : List Uuid)
    (hids : ((s.view t).recoveryCases.map RecoveryCase.id).Nodup) :
    ∃ ids s', machine.solo t (approvedBacklog limit exclude).run s [.ranking ranking] =
        some (.ok ids, s', []) ∧ s'.toTxns = s.toTxns ∧ ids.Nodup ∧
      ids.length = min limit ((s.view t).approved \ exclude.toFinset).card ∧
      ∀ id ∈ ids, id ∈ (s.view t).approved \ exclude.toFinset :=
  ⟨_, _, solo_approvedBacklog s t limit exclude ranking, rfl, nodup_backlog hids,
    length_backlog hids, fun _ => mem_of_mem_backlog⟩

/-- Two payments, whose cases 3 and 23 are both approved. -/
def Sample.twoApproved : List Action :=
  approved ++ alone 2 (.ingest request "c") (ingest 21 22 23) ++
    alone 3 (.diagnose 23 "c") (diagnose true .sendPaymentLink)

set_option maxRecDepth 10000 in
/-- One of them has been handled: the backlog is the other one. -/
theorem approvedBacklog_complete_approved : ∃ s',
    machine.solo 4 (approvedBacklog 5 [3]).run (World.empty.after Sample.twoApproved).shared
      [.ranking []] = some (.ok [23], s', []) := by
  have hids : (((World.empty.after Sample.twoApproved).shared.view 4).recoveryCases.map
      RecoveryCase.id).Nodup := by decide +kernel
  have hleft : ((World.empty.after Sample.twoApproved).shared.view 4).approved \ [3].toFinset =
      {23} := by decide +kernel
  obtain ⟨ids, s', hsolo, -, -, hlength, hin⟩ := approvedBacklog_complete _ 4 5 [3] [] hids
  rw [hleft, Finset.card_singleton] at hlength
  obtain ⟨id, rfl⟩ := List.length_eq_one_iff.mp hlength
  obtain rfl := Finset.mem_singleton.mp (hleft ▸ hin id (List.mem_singleton_self id))
  exact ⟨s', hsolo⟩

end RecoverAI
