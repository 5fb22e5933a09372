import RecoverAI.Framework.Threads

/-!
# Rely-guarantee reasoning about threads

A guarantee `G t s s'` says which changes of the shared state thread `t` may
make. What thread `t` relies on is then that everything happening between two of
its own steps is a sequence of changes guaranteed by other threads (`Rely`).

`Safe t Q p s` says that thread `t`, about to run `p` from the local state `l`
and the shared state `s`, keeps its guarantee whatever the others do meanwhile,
and that `Q` holds when `p` is over. It is defined by recursion on the program
and closed under `Rely` at every node, so an assertion proved with it is stable
by construction. A service is verified by following its text, with one rule for
each command.

`Certified` collects the obligations of a machine. For a certified machine every
step of every world is a step of the guarantee of its actor
(`Certified.guarantee`), so a fact about all runs is proved once, by induction
over guaranteed changes (`Certified.invariant`), and no program is looked at
again.
-/

namespace Interleave

open Relation

variable {S : Sig} {Op Shared Input ρ α β : Type}

/-- What thread `t` relies on: other threads act, each within its guarantee. -/
def Rely (G : Tid → Shared → Shared → Prop) (t : Tid) : Shared → Shared → Prop :=
  ReflTransGen fun s s' => ∃ u, u ≠ t ∧ G u s s'

namespace Rely

variable {G : Tid → Shared → Shared → Prop} {t : Tid} {s s' s'' : Shared}

theorem refl : Rely G t s s := ReflTransGen.refl

theorem trans (h : Rely G t s s') (h' : Rely G t s' s'') : Rely G t s s'' :=
  ReflTransGen.trans h h'

theorem tail {u : Tid} (h : Rely G t s s') (hu : u ≠ t) (hG : G u s' s'') : Rely G t s s'' :=
  ReflTransGen.tail h ⟨u, hu, hG⟩

theorem single {u : Tid} (hu : u ≠ t) (hG : G u s s') : Rely G t s s' :=
  ReflTransGen.single ⟨u, hu, hG⟩

/-- A property that the guarantees of the others preserve is stable. -/
theorem stable {P : Shared → Prop} (hP : ∀ u, u ≠ t → ∀ s s', G u s s' → P s → P s')
    (h : Rely G t s s') (hs : P s) : P s' := by
  induction h with
  | refl => exact hs
  | tail _ hG ih =>
    obtain ⟨u, hu, hG⟩ := hG
    exact hP u hu _ _ hG ih

end Rely

/-- Thread `t` may run `p` from here: every command it performs, after whatever
the others have done, keeps its guarantee, and the end satisfies `Q`. -/
def Safe (M : Machine S Op Shared Input ρ) (G : Tid → Shared → Shared → Prop) (t : Tid)
    (Q : α → Shared → Prop) : Prog S α → Shared → Prop
  | .done a, s => ∀ s', Rely G t s s' → Q a s'
  | .call c k, s => ∀ s', Rely G t s s' →
      ∀ i r s'', M.exec t c i s' = some (r, s'') → G t s' s'' ∧ Safe M G t Q (k r) s''

namespace Safe

variable {M : Machine S Op Shared Input ρ} {G : Tid → Shared → Shared → Prop} {t : Tid}
  {s s' : Shared}

/-- Others may act first. -/
theorem rely {Q : α → Shared → Prop} {p : Prog S α} (h : Safe M G t Q p s)
    (hs : Rely G t s s') : Safe M G t Q p s' := by
  cases p with
  | done a => exact fun s'' h'' => h s'' (hs.trans h'')
  | call c k => exact fun s'' h'' => h s'' (hs.trans h'')

end Safe

/-- The obligations of a machine towards a guarantee: starting a thread, running
it and losing it are all within the guarantee of that thread. A thread is
started in a shared state that only other threads have changed so far. -/
structure Certified (M : Machine S Op Shared Input ρ) (G : Tid → Shared → Shared → Prop)
    (s₀ : Shared) : Prop where
  start : ∀ t op s, Rely G t s₀ s → G t s (M.start t op s)
  body : ∀ t op s, Rely G t s₀ s →
    Safe M G t (fun r s => G t s (M.close t (some r) s)) (M.body op) (M.start t op s)
  crash : ∀ t s, G t s (M.close t none s)

/-- The invariant of a certified machine: every live thread is safe, and the
threads that have not been started have done nothing. -/
structure Sound (M : Machine S Op Shared Input ρ) (G : Tid → Shared → Shared → Prop)
    (s₀ : Shared) (w : World S Op Shared ρ) : Prop where
  safe : ∀ t op p, w.threads[t]? = some ⟨op, some p⟩ →
    Safe M G t (fun r s => G t s (M.close t (some r) s)) p w.shared
  fresh : ∀ t, w.threads.length ≤ t → Rely G t s₀ w.shared

namespace Certified

variable {M : Machine S Op Shared Input ρ} {G : Tid → Shared → Shared → Prop} {s₀ : Shared}
  {w w' : World S Op Shared ρ}

theorem sound_init : Sound M G s₀ (World.init s₀) where
  safe := fun t op p h => by simp [World.init] at h
  fresh := fun _ _ => Rely.refl

/-- A step that leaves one thread at `th'` keeps the invariant, given its
guarantee and that what is left of `th'` is safe. -/
private theorem sound_set (hw : Sound M G s₀ w) {t : Tid} {th : Thread S Op ρ}
    (ht : w.threads[t]? = some th) {s' : Shared} (hG : G t w.shared s') (th' : Thread S Op ρ)
    (hth' : ∀ p, th'.prog = some p →
      Safe M G t (fun r s => G t s (M.close t (some r) s)) p s') :
    Sound M G s₀ ⟨s', w.threads.set t th'⟩ where
  safe := by
    intro u op p hu
    -- the thread itself is safe by assumption, the others see the step as one they rely on
    have hlt : t < w.threads.length := (List.getElem?_eq_some_iff.mp ht).1
    by_cases htu : t = u
    · subst htu
      rw [List.getElem?_set_self hlt, Option.some.injEq] at hu
      subst hu
      exact hth' p rfl
    · rw [List.getElem?_set_ne htu] at hu
      exact (hw.safe u op p hu).rely (Rely.single htu hG)
  -- a thread that is still to come has seen one more step of another
  fresh := by
    intro u hu
    have hlt : t < w.threads.length := (List.getElem?_eq_some_iff.mp ht).1
    rw [List.length_set] at hu
    exact (hw.fresh u hu).tail (Nat.ne_of_lt (Nat.lt_of_lt_of_le hlt hu)) hG

/-- **Every step is guaranteed by its actor**, and keeps the invariant. -/
theorem sound_step (hM : Certified M G s₀) (hw : Sound M G s₀ w) {a : Action Op Input}
    (h : M.step w a = some w') : G (a.actor w) w.shared w'.shared ∧ Sound M G s₀ w' := by
  obtain ⟨op, rfl, rfl⟩ | ⟨t, i, op, c, k, r, s, rfl, ht, he, rfl⟩ |
    ⟨t, op, r, rfl, ht, rfl⟩ | ⟨t, op, p, rfl, ht, rfl⟩ := Machine.step_cases h
  · -- a new thread: everything so far was done by others
    have hfresh := hw.fresh w.threads.length (Nat.le_refl _)
    have hG := hM.start _ op _ hfresh
    refine ⟨hG, ?_, ?_⟩
    · intro u op' p hu
      change (w.threads ++ [_])[u]? = _ at hu
      -- a thread of before, the new one, or none
      rcases Nat.lt_trichotomy u w.threads.length with hlt | rfl | hgt
      · rw [List.getElem?_append_left hlt] at hu
        exact (hw.safe u op' p hu).rely (Rely.single (Nat.ne_of_gt hlt) hG)
      · rw [List.getElem?_concat_length, Option.some.injEq, Thread.mk.injEq] at hu
        obtain ⟨rfl, hp⟩ := hu
        obtain rfl := Option.some.inj hp
        exact hM.body _ op _ hfresh
      · rw [List.getElem?_eq_none (by simp; omega)] at hu
        cases hu
    · intro u hu
      rw [List.length_append, List.length_singleton] at hu
      exact (hw.fresh u (Nat.le_of_succ_le hu)).tail (Nat.ne_of_lt hu) hG
  -- a command keeps its guarantee, whatever the others have done since the last one
  · obtain ⟨hG, hk⟩ := hw.safe t op _ ht _ Rely.refl i r s he
    exact ⟨hG, sound_set hw ht hG _ fun p hp => Option.some.inj hp ▸ hk⟩
  -- an end and a crash are guaranteed by the certificate
  · have hG := hw.safe t op _ ht _ Rely.refl
    exact ⟨hG, sound_set hw ht hG _ fun p hp => by cases hp⟩
  · have hG := hM.crash t w.shared
    exact ⟨hG, sound_set hw ht hG _ fun p hp => by cases hp⟩

theorem sound (hM : Certified M G s₀) (h : M.Reaches (World.init s₀) w) : Sound M G s₀ w := by
  induction h with
  | refl => exact sound_init
  | tail _ hs ih =>
    obtain ⟨a, -, hs⟩ := hs
    exact (hM.sound_step ih hs).2

/-- A step from a reachable world is guaranteed by its actor. -/
theorem guarantee (hM : Certified M G s₀) (h : M.Reaches (World.init s₀) w)
    {a : Action Op Input} (hs : M.step w a = some w') :
    G (a.actor w) w.shared w'.shared :=
  (hM.sound_step (hM.sound h) hs).1

/-- **The rule of invariants.** A property of the initial state that every
guaranteed change preserves holds in every reachable world. -/
theorem invariant (hM : Certified M G s₀) {I : Shared → Prop} (h₀ : I s₀)
    (hG : ∀ t s s', G t s s' → I s → I s') (h : M.Reaches (World.init s₀) w) : I w.shared := by
  induction h with
  | refl => exact h₀
  | tail hr hs ih =>
    obtain ⟨a, -, hs⟩ := hs
    exact hG _ _ _ (hM.guarantee hr hs) ih

/-- The rule of invariants from a reachable world on, along steps that satisfy a
condition. The step case may use that the world before it is reachable. -/
theorem invariant_via (hM : Certified M G s₀)
    {ok : World S Op Shared ρ → Action Op Input → Prop} {w₁ : World S Op Shared ρ}
    {I : World S Op Shared ρ → Prop} (hr : M.Reaches (World.init s₀) w₁) (h₁ : I w₁)
    (hG : ∀ w a w', M.Reaches (World.init s₀) w → ok w a → M.step w a = some w' →
      G (a.actor w) w.shared w'.shared → I w → I w')
    (h : M.ReachesVia ok w₁ w) : I w := by
  induction h with
  | refl => exact h₁
  | tail hr' hs ih =>
    obtain ⟨a, ha, hs⟩ := hs
    have hreach := hr.trans (Machine.ReachesVia.reaches hr')
    exact hG _ a _ hreach ha hs (hM.guarantee hreach hs) ih

end Certified

end Interleave
