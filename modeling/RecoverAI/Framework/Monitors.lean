import RecoverAI.Framework.Confinement
import Mathlib.Logic.Function.Basic

/-!
# Monitored programs

`Prog.Performs` looks at each command by itself. Whether a command is in order often
depends on those before it: a lock may be asked for only while none above it is held, a
remote party called only while nothing is open. A `Monitor` keeps a state for one thread,
which the commands of the thread and their replies move on, and says which commands are
allowed in a state, and which replies to them are expected.

`Prog.Obeys m Q p x` says that the program `p`, followed from the state `x`, performs only
allowed commands as long as the replies are expected ones, and ends in a result and a state
that satisfy `Q`. It is a weakest precondition: the rule of sequencing (`obeys_bind`) is an
equivalence.

The state of a monitor is a ghost: no program reads it. `Machine.invariant_of_obeys` is the
rule that ties the ghosts of all threads to the shared state. An invariant of the two
together has to survive a start, an allowed command, which moves the ghost of its thread,
and an end, which puts the ghost back to rest. The machine has to give expected replies.
-/

namespace Interleave

variable {S : Sig} {Op Shared Input ρ α β σ : Type}

/-- What may be done and answered in a state, and where it leads. -/
structure Monitor (S : Sig) (σ : Type) where
  /-- The commands allowed in a state. -/
  allows : σ → S.Cmd → Prop
  /-- The replies to a command that may come in a state. -/
  expects : σ → (c : S.Cmd) → S.Reply c → Prop
  /-- The state after a command and its reply. -/
  next : σ → (c : S.Cmd) → S.Reply c → σ

namespace Prog

/-- Followed from a state, the program performs allowed commands only, and its end
satisfies `Q`. -/
def Obeys (m : Monitor S σ) (Q : α → σ → Prop) : Prog S α → σ → Prop
  | .done a, x => Q a x
  | .call c k, x => m.allows x c ∧ ∀ r, m.expects x c r → (k r).Obeys m Q (m.next x c r)

variable {m : Monitor S σ} {Q Q' : α → σ → Prop} {p : Prog S α} {x : σ}

theorem Obeys.mono (h : p.Obeys m Q x) (hQ : ∀ a y, Q a y → Q' a y) : p.Obeys m Q' x := by
  induction p generalizing x with
  | done a => exact hQ a x h
  | call c k ih => exact ⟨h.1, fun r hr => ih r (h.2 r hr)⟩

/-- **Sequencing.** The second program is followed from where the first one ends. -/
theorem obeys_bind {f : α → Prog S β} {Q : β → σ → Prop} :
    (p >>= f).Obeys m Q x ↔ p.Obeys m (fun a y => (f a).Obeys m Q y) x := by
  induction p generalizing x with
  | done a => exact Iff.rfl
  | call c k ih => exact and_congr_right fun _ => forall_congr' fun r => forall_congr' fun _ => ih r

end Prog

namespace Machine

variable {M : Machine S Op Shared Input ρ} {m : Op → Monitor S σ} {Q : Op → ρ → σ → Prop}
  {x₀ : σ} {s₀ : Shared} {w w' : World S Op Shared ρ} {g : Tid → σ}
  {ok : World S Op Shared ρ → Action Op Input → Prop}

/-- Every live thread obeys the monitor of its operation from where its ghost stands, and
the ghosts of the others are at rest. -/
structure Watched (m : Op → Monitor S σ) (Q : Op → ρ → σ → Prop) (x₀ : σ) (g : Tid → σ)
    (w : World S Op Shared ρ) : Prop where
  alive : ∀ (t : Tid) (op : Op) (p : Prog S ρ), w.threads[t]? = some ⟨op, some p⟩ →
    p.Obeys (m op) (Q op) (g t)
  resting : ∀ t : Tid, w.prog? t = none → g t = x₀

theorem watched_init : Watched m Q x₀ (fun _ => x₀) (World.init s₀) where
  alive := fun t op p ht => by simp [World.init] at ht
  resting := fun _ _ => rfl

/-- A new thread starts from rest. -/
private theorem Watched.start (hw : Watched m Q x₀ g w) {op : Op} {p : Prog S ρ} {s : Shared}
    (hp : p.Obeys (m op) (Q op) x₀) : Watched m Q x₀ g ⟨s, w.threads ++ [⟨op, some p⟩]⟩ := by
  -- its number is the length of the list of threads, where nothing was alive
  have hrest : g w.threads.length = x₀ := hw.resting _ (by simp [World.prog?])
  refine ⟨fun t op' p' ht => ?_, fun t ht => ?_⟩
  · rcases Nat.lt_trichotomy t w.threads.length with hlt | rfl | hgt
    · rw [List.getElem?_append_left hlt] at ht
      exact hw.alive t op' p' ht
    · rw [List.getElem?_concat_length, Option.some.injEq, Thread.mk.injEq] at ht
      obtain ⟨rfl, hp'⟩ := ht
      obtain rfl := Option.some.inj hp'
      rw [hrest]
      exact hp
    · rw [List.getElem?_eq_none (by simp; omega)] at ht
      cases ht
  · refine hw.resting t ?_
    by_cases hlt : t < w.threads.length
    · rw [World.prog?, List.getElem?_append_left hlt] at ht
      exact ht
    · simp [World.prog?, List.getElem?_eq_none (Nat.not_lt.mp hlt)]

/-- A thread that is set obeys from its new ghost; if it is over, the ghost is at rest. -/
private theorem Watched.set (hw : Watched m Q x₀ g w) {t : Tid} {op : Op}
    {prog : Option (Prog S ρ)} {s : Shared} {x : σ} (hlt : t < w.threads.length)
    (hprog : ∀ p, prog = some p → p.Obeys (m op) (Q op) x) (hover : prog = none → x = x₀) :
    Watched m Q x₀ (Function.update g t x) ⟨s, w.threads.set t ⟨op, prog⟩⟩ := by
  refine ⟨fun u op' p hu => ?_, fun u hu => ?_⟩
  · by_cases htu : u = t
    · subst htu
      rw [List.getElem?_set_self hlt, Option.some.injEq, Thread.mk.injEq] at hu
      obtain ⟨rfl, hp⟩ := hu
      rw [Function.update_self]
      exact hprog p hp
    · rw [List.getElem?_set_ne (Ne.symm htu)] at hu
      rw [Function.update_of_ne htu]
      exact hw.alive u op' p hu
  · by_cases htu : u = t
    · subst htu
      rw [World.prog?, List.getElem?_set_self hlt] at hu
      rw [Function.update_self]
      exact hover hu
    · rw [World.prog?, List.getElem?_set_ne (Ne.symm htu)] at hu
      rw [Function.update_of_ne htu]
      exact hw.resting u hu

/-- **The rule of ghosts.** The condition `ok` is one on the steps of the run. -/
theorem invariant_of_obeys (hbody : ∀ op, (M.body op).Obeys (m op) (Q op) x₀)
    {I : (Tid → σ) → Shared → Prop} (h₀ : I (fun _ => x₀) s₀)
    (hstart : ∀ g t op s, I g s → g t = x₀ → I g (M.start t op s))
    (hexpects : ∀ g w t op c k i r s, M.ReachesVia ok (World.init s₀) w → ok w (.run t i) →
      I g w.shared → w.threads[t]? = some ⟨op, some (.call c k)⟩ →
      M.exec t c i w.shared = some (r, s) → (m op).expects (g t) c r)
    (hexec : ∀ g w t op c i r s, M.ReachesVia ok (World.init s₀) w → ok w (.run t i) →
      I g w.shared → (m op).allows (g t) c → M.exec t c i w.shared = some (r, s) →
        I (Function.update g t ((m op).next (g t) c r)) s)
    (hclose : ∀ g t outcome s, I g s → I (Function.update g t x₀) (M.close t outcome s))
    (h : M.ReachesVia ok (World.init s₀) w) : ∃ g, Watched m Q x₀ g w ∧ I g w.shared := by
  induction h with
  | refl => exact ⟨_, watched_init, h₀⟩
  | @tail w w' hw₀ hs ih =>
    obtain ⟨a, hok, hs⟩ := hs
    obtain ⟨g, hw, hI⟩ := ih
    obtain ⟨op, rfl, rfl⟩ | ⟨t, i, op, c, k, r, s, rfl, ht, he, rfl⟩ |
      ⟨t, op, r, rfl, ht, rfl⟩ | ⟨t, op, p, rfl, ht, rfl⟩ := step_cases hs
    · have hrest : g w.threads.length = x₀ := hw.resting _ (by simp [World.prog?])
      exact ⟨g, hw.start (hbody op), hstart g _ op _ hI hrest⟩
    -- a command moves the ghost of its thread and no other
    · obtain ⟨hallowed, hk⟩ := hw.alive t op _ ht
      refine ⟨_, hw.set (List.getElem?_eq_some_iff.mp ht).1 (fun p hp => ?_) fun hnone => ?_,
        hexec g w t op c i r s hw₀ hok hI hallowed he⟩
      · obtain rfl := Option.some.inj hp
        exact hk r (hexpects g w t op c k i r s hw₀ hok hI ht he)
      · cases hnone
    · exact ⟨_, hw.set (List.getElem?_eq_some_iff.mp ht).1 (fun p hp => by cases hp) fun _ => rfl,
        hclose g t _ _ hI⟩
    · exact ⟨_, hw.set (List.getElem?_eq_some_iff.mp ht).1 (fun p hp => by cases hp) fun _ => rfl,
        hclose g t _ _ hI⟩

end Machine

end Interleave
