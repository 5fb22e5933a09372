import RecoverAI.Framework.Prog
import Mathlib.Data.Nat.Notation
import Mathlib.Logic.Relation

/-!
# Machines and the interleaving of their threads

A `Machine` says what a command does to the state all threads share. Threads are
started with an operation, run its program one command at a time in any order
(`Action.run`), and end either by delivering the program's result
(`Action.finish`) or by being killed at any point (`Action.crash`). Whatever the
environment chooses, such as a clock reading or the answer of a remote party, is
the `Input` of the step.

`Machine.exec` is partial: a command that has no step for the given input, or
that has to wait for another thread, yields `none`, and the scheduler has to do
something else first.
-/

namespace Interleave

open Relation

/-- Threads are numbered in the order in which they were started. -/
abbrev Tid := ℕ

/-- What the operations do, what the commands do, and what the start and the end
of a thread record. -/
structure Machine (S : Sig) (Op Shared Input ρ : Type) where
  /-- The program of an operation. -/
  body : Op → Prog S ρ
  /-- Recording the start of a thread. -/
  start : Tid → Op → Shared → Shared
  /-- One command of one thread. -/
  exec : Tid → (c : S.Cmd) → Input → Shared → Option (S.Reply c × Shared)
  /-- The end of a thread, with its result or (`none`) without one. -/
  close : Tid → Option ρ → Shared → Shared

/-- A thread: the operation it was started with, and what is left of its
program, `none` once it has ended. -/
structure Thread (S : Sig) (Op ρ : Type) where
  op : Op
  prog : Option (Prog S ρ)

/-- A global state: what the threads share, and the threads. -/
structure World (S : Sig) (Op Shared ρ : Type) where
  shared : Shared
  threads : List (Thread S Op ρ)

/-- One decision of the scheduler and the environment. -/
inductive Action (Op Input : Type) where
  | start (op : Op)
  | run (t : Tid) (i : Input)
  | finish (t : Tid)
  | crash (t : Tid)

namespace World

variable {S : Sig} {Op Shared ρ : Type}

/-- The world in which nothing has been started. -/
def init (s : Shared) : World S Op Shared ρ := ⟨s, []⟩

/-- The rest of the program of thread `t`, while the thread is alive. -/
def prog? (w : World S Op Shared ρ) (t : Tid) : Option (Prog S ρ) :=
  w.threads[t]?.bind Thread.prog

/-- No thread is alive. -/
def Quiescent (w : World S Op Shared ρ) : Prop :=
  ∀ th ∈ w.threads, th.prog = none

end World

/-- The thread an action belongs to. -/
def Action.actor {S : Sig} {Op Shared Input ρ : Type}
    (w : World S Op Shared ρ) : Action Op Input → Tid
  | .start _ => w.threads.length
  | .run t _ => t
  | .finish t => t
  | .crash t => t

namespace Machine

variable {S : Sig} {Op Shared Input ρ : Type} (M : Machine S Op Shared Input ρ)

/-- One step of a world, `none` when the action is not possible in it. -/
def step (w : World S Op Shared ρ) : Action Op Input → Option (World S Op Shared ρ)
  | .start op =>
    some { shared := M.start w.threads.length op w.shared
           threads := w.threads ++ [⟨op, some (M.body op)⟩] }
  | .run t i =>
    match w.threads[t]? with
    | some ⟨op, some (.call c k)⟩ =>
      match M.exec t c i w.shared with
      | some (r, s) => some ⟨s, w.threads.set t ⟨op, some (k r)⟩⟩
      | none => none
    | _ => none
  | .finish t =>
    match w.threads[t]? with
    | some ⟨op, some (.done r)⟩ =>
      some ⟨M.close t (some r) w.shared, w.threads.set t ⟨op, none⟩⟩
    | _ => none
  | .crash t =>
    match w.threads[t]? with
    | some ⟨op, some _⟩ => some ⟨M.close t none w.shared, w.threads.set t ⟨op, none⟩⟩
    | _ => none

/-- A list of actions, one after the other. -/
def runs (w : World S Op Shared ρ) (as : List (Action Op Input)) :
    Option (World S Op Shared ρ) :=
  as.foldlM M.step w

/-- Every action of a list satisfies `ok` where it is taken. -/
def AllVia (ok : World S Op Shared ρ → Action Op Input → Prop) :
    World S Op Shared ρ → List (Action Op Input) → Prop
  | _, [] => True
  | w, a :: as => ok w a ∧
    match M.step w a with
    | some w' => AllVia ok w' as
    | none => True

/-- Reachability along steps that all satisfy `ok`, a condition on the state
before the step and the action taken. -/
def ReachesVia (ok : World S Op Shared ρ → Action Op Input → Prop) :
    World S Op Shared ρ → World S Op Shared ρ → Prop :=
  ReflTransGen fun w w' => ∃ a, ok w a ∧ M.step w a = some w'

/-- Reachability along any steps. -/
def Reaches : World S Op Shared ρ → World S Op Shared ρ → Prop :=
  M.ReachesVia fun _ _ => True

variable {M} {w w' w'' : World S Op Shared ρ}
  {ok ok' : World S Op Shared ρ → Action Op Input → Prop}

theorem ReachesVia.mono (h : ∀ w a, ok w a → ok' w a) (hw : M.ReachesVia ok w w') :
    M.ReachesVia ok' w w' := by
  induction hw with
  | refl => exact ReflTransGen.refl
  | tail _ hs ih =>
    obtain ⟨a, ha, hs⟩ := hs
    exact ih.tail ⟨a, h _ _ ha, hs⟩

theorem ReachesVia.reaches (hw : M.ReachesVia ok w w') : M.Reaches w w' :=
  hw.mono fun _ _ _ => trivial

theorem Reaches.refl : M.Reaches w w := ReflTransGen.refl

theorem Reaches.trans (h₁ : M.Reaches w w') (h₂ : M.Reaches w' w'') : M.Reaches w w'' :=
  ReflTransGen.trans h₁ h₂

theorem Reaches.of_step {a : Action Op Input} (h : M.step w a = some w') : M.Reaches w w' :=
  ReflTransGen.single ⟨a, trivial, h⟩

@[simp] theorem runs_nil : M.runs w [] = some w := rfl

theorem runs_cons (a : Action Op Input) (as : List (Action Op Input)) :
    M.runs w (a :: as) = (M.step w a).bind fun w' => M.runs w' as := rfl

theorem reaches_of_runs {as : List (Action Op Input)} (h : M.runs w as = some w') :
    M.Reaches w w' := by
  induction as generalizing w with
  | nil => rw [runs_nil, Option.some.injEq] at h; exact h ▸ Reaches.refl
  | cons a as ih =>
    rw [runs_cons, Option.bind_eq_some_iff] at h
    obtain ⟨w₁, h₁, h₂⟩ := h
    exact (Reaches.of_step h₁).trans (ih h₂)

theorem reachesVia_of_runs {as : List (Action Op Input)} (hok : M.AllVia ok w as)
    (h : M.runs w as = some w') : M.ReachesVia ok w w' := by
  induction as generalizing w with
  | nil => rw [runs_nil, Option.some.injEq] at h; exact h ▸ ReflTransGen.refl
  | cons a as ih =>
    rw [runs_cons, Option.bind_eq_some_iff] at h
    obtain ⟨w₁, h₁, h₂⟩ := h
    obtain ⟨ha, has⟩ := hok
    rw [h₁] at has
    exact ReflTransGen.head ⟨a, ha, h₁⟩ (ih has h₂)

instance AllVia.decidable [∀ w a, Decidable (ok w a)] :
    ∀ w as, Decidable (M.AllVia ok w as)
  | _, [] => inferInstanceAs (Decidable True)
  | w, a :: as =>
    haveI : ∀ o : Option (World S Op Shared ρ), Decidable (match o with
        | some w' => M.AllVia ok w' as
        | none => True) := fun
      | some w' => AllVia.decidable w' as
      | none => inferInstanceAs (Decidable True)
    inferInstanceAs (Decidable (ok w a ∧ _))

/-- Inverting a step: what each action needs, and the world it leads to. -/
theorem step_cases {a : Action Op Input} (h : M.step w a = some w') :
    (∃ op, a = .start op ∧ w' = ⟨M.start w.threads.length op w.shared,
        w.threads ++ [⟨op, some (M.body op)⟩]⟩) ∨
    (∃ t i op c k r s, a = .run t i ∧ w.threads[t]? = some ⟨op, some (.call c k)⟩ ∧
        M.exec t c i w.shared = some (r, s) ∧
        w' = ⟨s, w.threads.set t ⟨op, some (k r)⟩⟩) ∨
    (∃ t op r, a = .finish t ∧ w.threads[t]? = some ⟨op, some (.done r)⟩ ∧
        w' = ⟨M.close t (some r) w.shared, w.threads.set t ⟨op, none⟩⟩) ∨
    (∃ t op p, a = .crash t ∧ w.threads[t]? = some ⟨op, some p⟩ ∧
        w' = ⟨M.close t none w.shared, w.threads.set t ⟨op, none⟩⟩) := by
  -- each action is read off the definition of `step`, which returns nothing in the other cases
  cases a with
  | start op => exact .inl ⟨op, rfl, (Option.some.inj h).symm⟩
  | run t i =>
    refine .inr (.inl ?_)
    simp only [step] at h
    split at h
    · next op c k ht =>
      split at h
      · next r s he => exact ⟨t, i, op, c, k, r, s, rfl, ht, he, (Option.some.inj h).symm⟩
      · cases h
    · cases h
  | finish t =>
    refine .inr (.inr (.inl ?_))
    simp only [step] at h
    split at h
    · next op r ht => exact ⟨t, op, r, rfl, ht, (Option.some.inj h).symm⟩
    · cases h
  | crash t =>
    refine .inr (.inr (.inr ?_))
    simp only [step] at h
    split at h
    · next op p ht => exact ⟨t, op, p, rfl, ht, (Option.some.inj h).symm⟩
    · cases h

end Machine

end Interleave
