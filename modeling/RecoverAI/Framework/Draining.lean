import RecoverAI.Framework.Threads
import Mathlib.Logic.Hydra

/-!
# Winding down

A program is a well-founded tree, so a thread that is run often enough comes to its end. It
does so among others, too: each step takes one thread from its program to a part of it, and
no step gives another thread more to do. Without new threads a machine therefore comes to
rest, whatever the scheduler and the environment choose (`Machine.proceeds_wellFounded`).
The order is the one of multisets in which an element is replaced by smaller ones.

Where it comes to rest is another matter: a command may have no step, because it waits for
another thread.
-/

namespace Interleave

open Relation

variable {S : Sig} {Op Shared Input ρ α : Type}

namespace Prog

/-- What is left of a program after its first command. -/
def Rest (q p : Prog S α) : Prop := ∃ c k r, p = .call c k ∧ q = k r

theorem rest_wellFounded : WellFounded (Rest : Prog S α → Prog S α → Prop) := by
  refine ⟨fun p => ?_⟩
  induction p with
  | done a => exact ⟨_, fun q ⟨c, k, r, he, _⟩ => by cases he⟩
  | call c k ih =>
    refine ⟨_, fun q ⟨c', k', r, he, hq⟩ => ?_⟩
    cases he
    rw [hq]
    exact ih r

end Prog

namespace Machine

open scoped List

variable (M : Machine S Op Shared Input ρ)

/-- A step of a live thread that goes on with its program, or delivers its result. -/
def Proceeds (w w' : World S Op Shared ρ) : Prop :=
  (∃ t i, M.step w (.run t i) = some w') ∨ ∃ t, M.step w (.finish t) = some w'

variable {M} {w w' : World S Op Shared ρ}

theorem Proceeds.of_exec {t : Tid} {op : Op} {c : S.Cmd} {k : S.Reply c → Prog S ρ} {i : Input}
    {r : S.Reply c} {s : Shared} (ht : w.threads[t]? = some ⟨op, some (.call c k)⟩)
    (he : M.exec t c i w.shared = some (r, s)) :
    M.Proceeds w ⟨s, w.threads.set t ⟨op, some (k r)⟩⟩ := by
  refine .inl ⟨t, i, ?_⟩
  simp only [step, ht, he]

theorem Proceeds.of_done {t : Tid} {op : Op} {r : ρ}
    (ht : w.threads[t]? = some ⟨op, some (.done r)⟩) :
    M.Proceeds w ⟨M.close t (some r) w.shared, w.threads.set t ⟨op, none⟩⟩ := by
  refine .inr ⟨t, ?_⟩
  simp only [step, ht]

theorem Proceeds.reaches (h : M.Proceeds w w') : M.Reaches w w' := by
  obtain ⟨t, i, h⟩ | ⟨t, h⟩ := h
  · exact .of_step h
  · exact .of_step h

/-- A step of a thread: the threads before it and after it are as they were, and of its
program a part is left, or nothing. -/
theorem Proceeds.cases (h : M.Proceeds w w') : ∃ ths op p prog ths',
    w.threads = ths ++ ⟨op, some p⟩ :: ths' ∧ w'.threads = ths ++ ⟨op, prog⟩ :: ths' ∧
      ∀ q, prog = some q → q.Rest p := by
  -- the list of threads splits at the one that is set
  have hset : ∀ {t th} th', w.threads[t]? = some th → ∃ ths ths',
      w.threads = ths ++ th :: ths' ∧ w.threads.set t th' = ths ++ th' :: ths' := by
    intro t th th' ht
    obtain ⟨hlt, hget⟩ := List.getElem?_eq_some_iff.mp ht
    refine ⟨w.threads.take t, w.threads.drop (t + 1), ?_, List.set_eq_take_append_cons_drop.trans
      (if_pos hlt)⟩
    rw [← hget, ← List.drop_eq_getElem_cons hlt, List.take_append_drop]
  obtain ⟨t, i, h⟩ | ⟨t, h⟩ := h
  · obtain ⟨op, ha, -⟩ | ⟨u, j, op, c, k, r, s, -, ht, -, rfl⟩ | ⟨u, op, r, ha, -⟩ |
      ⟨u, op, p, ha, -⟩ := step_cases h
    · cases ha
    · obtain ⟨ths, ths', hths, hths'⟩ := hset ⟨op, some (k r)⟩ ht
      refine ⟨ths, op, _, some (k r), ths', hths, hths', fun q hq => ?_⟩
      exact ⟨c, k, r, rfl, (Option.some.inj hq).symm⟩
    · cases ha
    · cases ha
  · obtain ⟨op, ha, -⟩ | ⟨u, j, op, c, k, r, s, ha, -⟩ | ⟨u, op, r, -, ht, rfl⟩ |
      ⟨u, op, p, ha, -⟩ := step_cases h
    · cases ha
    · cases ha
    · obtain ⟨ths, ths', hths, hths'⟩ := hset ⟨op, none⟩ ht
      exact ⟨ths, op, _, none, ths', hths, hths', fun q hq => by cases hq⟩
    · cases ha

/-- **Every machine winds down**: there is no end of starting, or there is an end. -/
theorem proceeds_wellFounded : WellFounded fun w' w => M.Proceeds w w' := by
  -- the programs of the live threads, as a multiset
  let left (w : World S Op Shared ρ) : Multiset (Prog S ρ) :=
    (w.threads.filterMap Thread.prog : List (Prog S ρ))
  have : Std.Irrefl (Prog.Rest : Prog S ρ → Prog S ρ → Prop) :=
    ⟨fun p hp => Prog.rest_wellFounded.irrefl.irrefl p hp⟩
  refine Subrelation.wf (fun {w' w} h => ?_)
    (InvImage.wf left (Prog.rest_wellFounded (S := S) (α := ρ)).cutExpand)
  obtain ⟨ths, op, p, prog, ths', hths, hths', hrest⟩ := h.cases
  change CutExpand Prog.Rest (left w') (left w)
  refine ⟨(prog.toList : List (Prog S ρ)), p, fun q hq => hrest q (by simpa using hq), ?_⟩
  have hleft : left w = ((ths.filterMap Thread.prog ++ p :: ths'.filterMap Thread.prog :
      List (Prog S ρ)) : Multiset (Prog S ρ)) := by
    change ((w.threads.filterMap Thread.prog : List (Prog S ρ)) : Multiset (Prog S ρ)) = _
    rw [hths, List.filterMap_append]
    rfl
  have hleft' : left w' = ((ths.filterMap Thread.prog ++ (prog.toList ++
      ths'.filterMap Thread.prog) : List (Prog S ρ)) : Multiset (Prog S ρ)) := by
    change ((w'.threads.filterMap Thread.prog : List (Prog S ρ)) : Multiset (Prog S ρ)) = _
    rw [hths', List.filterMap_append]
    cases prog <;> rfl
  rw [hleft, hleft', ← Multiset.coe_singleton, Multiset.coe_add, Multiset.coe_add,
    Multiset.coe_eq_coe]
  -- the part of one thread takes the place of its program
  simp only [List.append_assoc]
  refine List.Perm.append_left _ ?_
  calc prog.toList ++ (ths'.filterMap Thread.prog ++ [p])
      _ ~ (ths'.filterMap Thread.prog ++ [p]) ++ prog.toList := List.perm_append_comm
      _ ~ (p :: ths'.filterMap Thread.prog) ++ prog.toList :=
        (List.perm_append_singleton p _).append_right _

/-- So no run goes on for ever. -/
theorem exists_not_proceeds (run : ℕ → World S Op Shared ρ) :
    ∃ n, ¬ M.Proceeds (run n) (run (n + 1)) := by
  obtain ⟨_, ⟨n, rfl⟩, hmin⟩ := M.proceeds_wellFounded.has_min (Set.range run) ⟨_, 0, rfl⟩
  exact ⟨n, hmin _ ⟨n + 1, rfl⟩⟩

end Machine

end Interleave
