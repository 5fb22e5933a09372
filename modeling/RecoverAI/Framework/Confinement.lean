import RecoverAI.Framework.Threads

/-!
# Confined programs

Some facts about a run do not depend on what the commands reply, only on which commands
a program can perform at all. `Prog.Performs P` says that every command of a program
satisfies `P`, on every path through it; it is closed under sequencing, so a service is
checked by following its text, without any state.

If the program of every operation is confined so, `Machine.invariant_of_performs` turns
a property that permitted commands preserve into an invariant of all reachable worlds.
-/

namespace Interleave

variable {S : Sig} {Op Shared Input ρ α β : Type}

namespace Prog

/-- Whatever the replies, every command of the program satisfies `P`. -/
def Performs (P : S.Cmd → Prop) : Prog S α → Prop
  | .done _ => True
  | .call c k => P c ∧ ∀ r, (k r).Performs P

namespace Performs

variable {P : S.Cmd → Prop} {p : Prog S α}

/-- **Sequencing.** -/
theorem bind {f : α → Prog S β} (h : p.Performs P) (hf : ∀ a, (f a).Performs P) :
    (p >>= f).Performs P := by
  induction p with
  | done a => exact hf a
  | call c k ih => exact ⟨h.1, fun r => ih r (h.2 r)⟩

end Performs

end Prog

/-- The operations the threads were started with. -/
def World.ops (w : World S Op Shared ρ) : List Op := w.threads.map Thread.op

namespace Machine

variable {M : Machine S Op Shared Input ρ} {P : Op → S.Cmd → Prop} {s₀ : Shared}
  {w w' : World S Op Shared ρ}

/-- Every live thread has only commands left that its operation may perform. -/
def Confined (P : Op → S.Cmd → Prop) (w : World S Op Shared ρ) : Prop :=
  ∀ (t : Tid) (op : Op) (p : Prog S ρ), w.threads[t]? = some ⟨op, some p⟩ → p.Performs (P op)

/-- A thread that is set to a confined program leaves the others confined. -/
private theorem Confined.set (hw : Confined P w) {t : Tid} {op : Op} {prog : Option (Prog S ρ)}
    {s : Shared} (hprog : ∀ p, prog = some p → p.Performs (P op)) :
    Confined P ⟨s, w.threads.set t ⟨op, prog⟩⟩ := by
  intro u op' p hu
  rw [List.getElem?_set] at hu
  -- the thread that is set has `hprog`; every other one is as it was
  split at hu
  · split at hu
    · rw [Option.some.injEq, Thread.mk.injEq] at hu
      obtain ⟨rfl, hp⟩ := hu
      exact hprog p hp
    · cases hu
  · exact hw u op' p hu

theorem confined_step (hbody : ∀ op, (M.body op).Performs (P op)) (hw : Confined P w)
    {a : Action Op Input} (h : M.step w a = some w') : Confined P w' := by
  obtain ⟨op, rfl, rfl⟩ | ⟨t, i, op, c, k, r, s, rfl, ht, he, rfl⟩ |
    ⟨t, op, r, rfl, ht, rfl⟩ | ⟨t, op, p, rfl, ht, rfl⟩ := step_cases h
  -- the new thread runs the body of its operation
  · intro u op' p hu
    rw [List.getElem?_append] at hu
    split at hu
    · exact hw u op' p hu
    · have hnew := List.mem_of_getElem? hu
      rw [List.mem_singleton, Thread.mk.injEq, Option.some.injEq] at hnew
      obtain ⟨rfl, rfl⟩ := hnew
      exact hbody _
  -- what follows on a command a program may perform is confined again
  · refine hw.set fun p hp => ?_
    obtain rfl := Option.some.inj hp
    exact (hw t op _ ht).2 r
  · exact hw.set fun p hp => by cases hp
  · exact hw.set fun p hp => by cases hp

/-- Setting a thread to another state of its program leaves the operations as they are. -/
private theorem ops_set {t : Tid} {op : Op} {prog prog' : Option (Prog S ρ)} {s : Shared}
    (ht : w.threads[t]? = some ⟨op, prog⟩) :
    World.ops ⟨s, w.threads.set t ⟨op, prog'⟩⟩ = w.ops := by
  obtain ⟨hlt, hget⟩ := List.getElem?_eq_some_iff.mp ht
  have hlt' : t < (w.threads.map Thread.op).length := by rwa [List.length_map]
  have hop : (w.threads.map Thread.op)[t] = op := by rw [List.getElem_map, hget]
  rw [World.ops, List.map_set]
  exact hop ▸ List.set_getElem_self _

/-- **The rule of invariants for confined programs.** The property may speak of the
operations that have been started; it has to survive a start, a command its operation
may perform, and an end. -/
theorem invariant_of_performs (hbody : ∀ op, (M.body op).Performs (P op))
    {I : List Op → Shared → Prop} (h₀ : I [] s₀)
    (hstart : ∀ ops op s, I ops s → I (ops ++ [op]) (M.start ops.length op s))
    (hexec : ∀ ops t op c i s r s', I ops s → ops[t]? = some op → P op c →
      M.exec t c i s = some (r, s') → I ops s')
    (hclose : ∀ ops t outcome s, I ops s → I ops (M.close t outcome s))
    (h : M.Reaches (World.init s₀) w) : I w.ops w.shared := by
  -- the programs stay confined, so `hexec` is only asked about commands they may perform
  suffices hw : Confined P w ∧ I w.ops w.shared from hw.2
  induction h with
  | refl => exact ⟨fun t op p ht => by simp [World.init] at ht, h₀⟩
  | @tail w w' _ hs ih =>
    obtain ⟨a, -, hs⟩ := hs
    obtain ⟨hconfined, hI⟩ := ih
    refine ⟨confined_step hbody hconfined hs, ?_⟩
    obtain ⟨op, rfl, rfl⟩ | ⟨t, i, op, c, k, r, s, rfl, ht, he, rfl⟩ |
      ⟨t, op, r, rfl, ht, rfl⟩ | ⟨t, op, p, rfl, ht, rfl⟩ := step_cases hs
    · have hops := hstart w.ops op w.shared hI
      -- the name of the new thread is the number of the operations before it
      rw [World.ops, List.length_map] at hops
      rw [World.ops, List.map_append]
      exact hops
    · rw [ops_set ht]
      -- a command belongs to the operation its thread was started with
      have hop : w.ops[t]? = some op := by rw [World.ops, List.getElem?_map, ht]; rfl
      exact hexec w.ops t op c i w.shared r s hI hop (hconfined t op _ ht).1 he
    · rw [ops_set ht]
      exact hclose w.ops t (some r) w.shared hI
    · rw [ops_set ht]
      exact hclose w.ops t none w.shared hI

end Machine

end Interleave
