import RecoverAI.Framework.Threads
import Mathlib.Tactic.Set

/-!
# Running alone

`Machine.solo` runs a program to its end with no other thread in between, one
input for each command. `Machine.perform?` is a whole operation run so, from its
start to the delivery of its result, and `reaches_of_perform?` places it in the
interleaved semantics: what an operation does alone is one of the things it may
do among others.
-/

namespace Interleave

variable {S : Sig} {Op Shared Input ρ α β : Type}

namespace Machine

variable (M : Machine S Op Shared Input ρ)

/-- Run `p` as thread `t`, consuming one input a command. The result comes with
the shared state and the inputs that are left. -/
def solo (t : Tid) : Prog S α → Shared → List Input →
    Option (α × Shared × List Input)
  | .done a, s, is => some (a, s, is)
  | .call _ _, _, [] => none
  | .call c k, s, i :: is =>
    match M.exec t c i s with
    | some (r, s') => solo t (k r) s' is
    | none => none

/-- A whole operation as thread `t`: start it, run it alone, deliver its result. -/
def perform? (t : Tid) (op : Op) (is : List Input) (s : Shared) : Option (ρ × Shared) :=
  match M.solo t (M.body op) (M.start t op s) is with
  | some (r, s', []) => some (r, M.close t (some r) s')
  | _ => none

variable {M}

@[simp] theorem solo_done (t : Tid) (a : α) (s : Shared) (is : List Input) :
    M.solo t (.done a : Prog S α) s is = some (a, s, is) := by
  cases is <;> rfl

theorem solo_call {t : Tid} {c : S.Cmd} {k : S.Reply c → Prog S α} {s s' : Shared}
    {i : Input} {is : List Input} {r : S.Reply c}
    (h : M.exec t c i s = some (r, s')) :
    M.solo t (.call c k) s (i :: is) = M.solo t (k r) s' is := by
  rw [solo, h]

theorem solo_bind (t : Tid) (p : Prog S α) (f : α → Prog S β) (s : Shared) (is : List Input) :
    M.solo t (p >>= f) s is =
      (M.solo t p s is).bind fun x => M.solo t (f x.1) x.2.1 x.2.2 := by
  -- by induction on the program; a command takes one input, and the rest runs on what is left
  induction p generalizing s is with
  | done a => simp
  | call c k ih =>
    cases is with
    | nil => rfl
    | cons i is =>
      rw [Prog.call_bind, solo, solo]
      cases M.exec t c i s with
      | none => rfl
      | some x => exact ih _ _ _

/-- Inputs that are left are not looked at. -/
theorem solo_append {t : Tid} {p : Prog S α} {s s' : Shared} {is is' : List Input} {a : α}
    (h : M.solo t p s is = some (a, s', is')) (rest : List Input) :
    M.solo t p s (is ++ rest) = some (a, s', is' ++ rest) := by
  induction p generalizing s is with
  | done a =>
    rw [solo_done, Option.some.injEq, Prod.mk.injEq, Prod.mk.injEq] at h
    obtain ⟨rfl, rfl, rfl⟩ := h
    exact solo_done t a s _
  | call c k ih =>
    cases is with
    | nil => cases h
    | cons i is =>
      rw [solo] at h
      rw [List.cons_append, solo]
      cases he : M.exec t c i s with
      | none =>
        rw [he] at h
        cases h
      | some x =>
        rw [he] at h
        exact ih _ h

section Reaches

variable {ok : World S Op Shared ρ → Action Op Input → Prop}

/-- The steps of a thread that runs alone are steps of the world. -/
theorem reachesVia_of_solo {t : Tid} (op : Op) {p : Prog S ρ} {s s' : Shared}
    {is is' : List Input} {r : ρ} {ths : List (Thread S Op ρ)}
    (ht : t < ths.length) (hok : ∀ w, ∀ i ∈ is, ok w (.run t i))
    (h : M.solo t p s is = some (r, s', is')) :
    M.ReachesVia ok ⟨s, ths.set t ⟨op, some p⟩⟩ ⟨s', ths.set t ⟨op, some (.done r)⟩⟩ := by
  -- every command of the program is a step of the thread, which the world allows by `hok`
  induction p generalizing s is with
  | done a =>
    rw [solo_done, Option.some.injEq, Prod.mk.injEq, Prod.mk.injEq] at h
    obtain ⟨rfl, rfl, -⟩ := h
    exact Relation.ReflTransGen.refl
  | call c k ih =>
    cases is with
    | nil => cases h
    | cons i is =>
      rw [solo] at h
      split at h
      · next q s₁ he =>
        have hstep : M.step ⟨s, ths.set t ⟨op, some (.call c k)⟩⟩ (.run t i)
            = some ⟨s₁, ths.set t ⟨op, some (k q)⟩⟩ := by
          simp only [step, List.getElem?_set_self ht, he, List.set_set]
        exact .head ⟨_, hok _ i List.mem_cons_self, hstep⟩
          (ih q (fun w i hi => hok w i (List.mem_cons_of_mem _ hi)) h)
      · cases h

/-- **An operation run alone is a run of the world.** -/
theorem reachesVia_of_perform? {w : World S Op Shared ρ} {op : Op} {is : List Input} {r : ρ}
    {s' : Shared} (hstart : ok w (.start op))
    (hrun : ∀ w', ∀ i ∈ is, ok w' (.run w.threads.length i))
    (hfinish : ∀ w', ok w' (.finish w.threads.length))
    (h : M.perform? w.threads.length op is w.shared = some (r, s')) :
    M.ReachesVia ok w ⟨s', w.threads ++ [⟨op, none⟩]⟩ := by
  rw [perform?] at h
  split at h
  · next r' s₁ hsolo =>
    rw [Option.some.injEq, Prod.mk.injEq] at h
    obtain ⟨rfl, rfl⟩ := h
    set t := w.threads.length with ht
    have hlt : t < (w.threads ++ [(⟨op, some (M.body op)⟩ : Thread S Op ρ)]).length := by
      simp [ht]
    -- the new thread is the last one, so setting it leaves the threads before it alone
    have hset : ∀ th : Thread S Op ρ,
        (w.threads ++ [(⟨op, some (M.body op)⟩ : Thread S Op ρ)]).set t th
          = w.threads ++ [th] := by
      intro th
      rw [ht, List.set_append_right _ _ (Nat.le_refl _), Nat.sub_self, List.set_cons_zero]
    have hbegin : M.step w (.start op) = some ⟨M.start t op w.shared,
        w.threads ++ [⟨op, some (M.body op)⟩]⟩ := rfl
    have hsteps := reachesVia_of_solo op hlt hrun hsolo
    rw [hset, hset] at hsteps
    have hget : (w.threads ++ [(⟨op, some (.done r')⟩ : Thread S Op ρ)])[t]?
        = some ⟨op, some (.done r')⟩ := by
      rw [ht, List.getElem?_concat_length]
    have hend : M.step ⟨s₁, w.threads ++ [⟨op, some (.done r')⟩]⟩ (.finish t)
        = some ⟨M.close t (some r') s₁, w.threads ++ [⟨op, none⟩]⟩ := by
      simp only [step, hget]
      rw [ht, List.set_append_right _ _ (Nat.le_refl _), Nat.sub_self, List.set_cons_zero]
    -- the start, the commands, and the end
    exact .head ⟨_, hstart, hbegin⟩ (hsteps.tail ⟨_, hfinish _, hend⟩)
  · cases h

end Reaches

theorem reaches_of_perform? {w : World S Op Shared ρ} {op : Op} {is : List Input} {r : ρ}
    {s' : Shared} (h : M.perform? w.threads.length op is w.shared = some (r, s')) :
    M.Reaches w ⟨s', w.threads ++ [⟨op, none⟩]⟩ :=
  reachesVia_of_perform? trivial (fun _ _ _ => trivial) (fun _ => trivial) h

end Machine

end Interleave
