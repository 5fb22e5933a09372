import RecoverAI.Framework.Threads

/-!
# What belongs to one thread

A part of the shared state may belong to single threads: `view t` is the part of thread `t`,
and no other thread changes it (`Machine.Separate`). What a program does to its part can be told
without looking at the others, for no step of theirs comes in between. `Prog.Tells` is that
account, a weakest precondition for one thread: the rule of sequencing (`tells_bind`) is an
equivalence, and there is nothing to be stable under.

`Machine.Accounted.of_reaches` carries the accounts of all programs to every reachable state. A
thread that is alive is where its program is in its account, one that is over was told of when
it ended, and one that has not been started has nothing.
-/

namespace Interleave

variable {S : Sig} {Op Shared Input ρ α β V : Type}

/-- Each thread changes its own part of the shared state and no other. -/
structure Machine.Separate (M : Machine S Op Shared Input ρ) (view : Tid → Shared → V) : Prop where
  start : ∀ {t u : Tid} {op : Op} {s : Shared}, u ≠ t → view u (M.start t op s) = view u s
  exec : ∀ {t u : Tid} {c : S.Cmd} {i : Input} {s s' : Shared} {r : S.Reply c}, u ≠ t →
    M.exec t c i s = some (r, s') → view u s' = view u s
  close : ∀ {t u : Tid} {o : Option ρ} {s : Shared}, u ≠ t → view u (M.close t o s) = view u s

namespace Prog

/-- Thread `t`, about to run the program with the part `v`, ends as `Q` says: of the result and
of the part it leaves. -/
def Tells (M : Machine S Op Shared Input ρ) (view : Tid → Shared → V) (t : Tid)
    (Q : α → V → Prop) : Prog S α → V → Prop
  | .done a, v => Q a v
  | .call c k, v => ∀ (s : Shared) (i : Input) (r : S.Reply c) (s' : Shared), view t s = v →
      M.exec t c i s = some (r, s') → (k r).Tells M view t Q (view t s')

variable {M : Machine S Op Shared Input ρ} {view : Tid → Shared → V} {t : Tid}
  {Q Q' : α → V → Prop} {p : Prog S α} {v : V}

theorem Tells.mono (h : p.Tells M view t Q v) (hQ : ∀ a v, Q a v → Q' a v) :
    p.Tells M view t Q' v := by
  induction p generalizing v with
  | done a => exact hQ a v h
  | call c k ih => exact fun s i r s' hv he => ih r (h s i r s' hv he)

theorem Tells.of_forall (hQ : ∀ a v, Q a v) : p.Tells M view t Q v := by
  induction p generalizing v with
  | done a => exact hQ a v
  | call c k ih => exact fun _ _ r _ _ _ => ih r

/-- **Sequencing.** -/
theorem tells_bind {f : α → Prog S β} {Q : β → V → Prop} :
    (p >>= f).Tells M view t Q v ↔
      p.Tells M view t (fun a v => (f a).Tells M view t Q v) v := by
  induction p generalizing v with
  | done a => exact Iff.rfl
  | call c k ih =>
    exact forall_congr' fun s => forall_congr' fun i => forall_congr' fun r => forall_congr' fun s' =>
      forall_congr' fun _ => forall_congr' fun _ => ih r

end Prog

namespace Machine

variable {M : Machine S Op Shared Input ρ} {view : Tid → Shared → V} {v₀ : V} {s₀ : Shared}
  {J : Op → V → Prop} {Q : Op → ρ → V → Prop} {R : Op → V → Prop} {w w' : World S Op Shared ρ}

/-- What is told of every thread: `J` and the account of its program while it is alive, `R` when
it is over, and `v₀` before it is started. -/
structure Accounted (M : Machine S Op Shared Input ρ) (view : Tid → Shared → V) (v₀ : V)
    (J : Op → V → Prop) (Q : Op → ρ → V → Prop) (R : Op → V → Prop)
    (w : World S Op Shared ρ) : Prop where
  alive : ∀ (t : Tid) (op : Op) (p : Prog S ρ), w.threads[t]? = some ⟨op, some p⟩ →
    J op (view t w.shared) ∧ p.Tells M view t (Q op) (view t w.shared)
  ended : ∀ (t : Tid) (op : Op), w.threads[t]? = some ⟨op, none⟩ → R op (view t w.shared)
  fresh : ∀ t : Tid, w.threads[t]? = none → view t w.shared = v₀

namespace Accounted

/-- A thread that is set has its own account to give; the parts of the others are as they
were. -/
private theorem set (hw : Accounted M view v₀ J Q R w) {t : Tid} {op : Op}
    {prog : Option (Prog S ρ)} {s : Shared} (hlt : t < w.threads.length)
    (hothers : ∀ u, u ≠ t → view u s = view u w.shared)
    (halive : ∀ p, prog = some p → J op (view t s) ∧ p.Tells M view t (Q op) (view t s))
    (hover : prog = none → R op (view t s)) :
    Accounted M view v₀ J Q R ⟨s, w.threads.set t ⟨op, prog⟩⟩ := by
  refine ⟨fun u op' p hu => ?_, fun u op' hu => ?_, fun u hu => ?_⟩
  · by_cases htu : u = t
    · subst htu
      rw [List.getElem?_set_self hlt, Option.some.injEq, Thread.mk.injEq] at hu
      obtain ⟨rfl, hp⟩ := hu
      exact halive p hp
    · rw [List.getElem?_set_ne (Ne.symm htu)] at hu
      change J op' (view u s) ∧ p.Tells M view u (Q op') (view u s)
      rw [hothers u htu]
      exact hw.alive u op' p hu
  · by_cases htu : u = t
    · subst htu
      rw [List.getElem?_set_self hlt, Option.some.injEq, Thread.mk.injEq] at hu
      obtain ⟨rfl, hp⟩ := hu
      exact hover hp
    · rw [List.getElem?_set_ne (Ne.symm htu)] at hu
      change R op' (view u s)
      rw [hothers u htu]
      exact hw.ended u op' hu
  · have htu : u ≠ t := fun htu => by
      subst htu
      rw [List.getElem?_set_self hlt] at hu
      cases hu
    rw [List.getElem?_set_ne (Ne.symm htu)] at hu
    exact (hothers u htu).trans (hw.fresh u hu)

/-- A new thread starts with nothing but its account. -/
private theorem start (hw : Accounted M view v₀ J Q R w) {op : Op} {s : Shared} {p : Prog S ρ}
    (hothers : ∀ u, u ≠ w.threads.length → view u s = view u w.shared)
    (halive : J op (view w.threads.length s) ∧
      p.Tells M view w.threads.length (Q op) (view w.threads.length s)) :
    Accounted M view v₀ J Q R ⟨s, w.threads ++ [⟨op, some p⟩]⟩ := by
  have hold : ∀ {u : Tid} {th : Option (Thread S Op ρ)}, u ≠ w.threads.length →
      (w.threads ++ [⟨op, some p⟩])[u]? = th → w.threads[u]? = th := by
    intro u th hu hth
    rcases Nat.lt_or_ge u w.threads.length with hlt | hge
    · rwa [List.getElem?_append_left hlt] at hth
    · have hgt := Nat.lt_of_le_of_ne hge (Ne.symm hu)
      rw [List.getElem?_eq_none (by rw [List.length_append]; exact hgt)] at hth
      rw [List.getElem?_eq_none hge, hth]
  refine ⟨fun u op' p' hu => ?_, fun u op' hu => ?_, fun u hu => ?_⟩
  · by_cases htu : u = w.threads.length
    · subst htu
      rw [List.getElem?_concat_length, Option.some.injEq, Thread.mk.injEq] at hu
      obtain ⟨rfl, hp⟩ := hu
      obtain rfl := Option.some.inj hp
      exact halive
    · change J op' (view u s) ∧ p'.Tells M view u (Q op') (view u s)
      rw [hothers u htu]
      exact hw.alive u op' p' (hold htu hu)
  · by_cases htu : u = w.threads.length
    · subst htu
      rw [List.getElem?_concat_length, Option.some.injEq, Thread.mk.injEq] at hu
      cases hu.2
    · change R op' (view u s)
      rw [hothers u htu]
      exact hw.ended u op' (hold htu hu)
  · have htu : u ≠ w.threads.length := fun htu => by
      subst htu
      rw [List.getElem?_concat_length] at hu
      cases hu
    exact (hothers u htu).trans (hw.fresh u (hold htu hu))

/-- **Every thread is accounted for**, in every reachable state. -/
theorem of_reaches (hsep : M.Separate view) (h₀ : ∀ t, view t s₀ = v₀)
    (hstart : ∀ t op s, view t s = v₀ → J op (view t (M.start t op s)) ∧
      (M.body op).Tells M view t (Q op) (view t (M.start t op s)))
    (hexec : ∀ t op c i s (r : S.Reply c) s', J op (view t s) → M.exec t c i s = some (r, s') →
      J op (view t s'))
    (hfinish : ∀ t op r s, J op (view t s) → Q op r (view t s) →
      R op (view t (M.close t (some r) s)))
    (hcrash : ∀ t op s, J op (view t s) → R op (view t (M.close t none s)))
    (h : M.Reaches (World.init s₀) w) : Accounted M view v₀ J Q R w := by
  induction h with
  | refl => exact ⟨by simp [World.init], by simp [World.init], fun t _ => h₀ t⟩
  | @tail w w' _ hs ih =>
    obtain ⟨a, -, hs⟩ := hs
    obtain ⟨op, rfl, rfl⟩ | ⟨t, i, op, c, k, r, s, rfl, ht, he, rfl⟩ |
      ⟨t, op, r, rfl, ht, rfl⟩ | ⟨t, op, p, rfl, ht, rfl⟩ := step_cases hs
    · have hnone := ih.fresh w.threads.length (List.getElem?_eq_none (Nat.le_refl _))
      exact ih.start (fun u hu => hsep.start hu) (hstart _ op _ hnone)
    · obtain ⟨hJ, htells⟩ := ih.alive t op _ ht
      refine ih.set (List.getElem?_eq_some_iff.mp ht).1 (fun u hu => hsep.exec hu he) ?_ (by simp)
      intro p hp
      obtain rfl := Option.some.inj hp
      exact ⟨hexec t op c i _ r s hJ he, htells _ i r s rfl he⟩
    · obtain ⟨hJ, htells⟩ := ih.alive t op _ ht
      exact ih.set (List.getElem?_eq_some_iff.mp ht).1 (fun u hu => hsep.close hu) (by simp)
        fun _ => hfinish t op r _ hJ htells
    · obtain ⟨hJ, -⟩ := ih.alive t op _ ht
      exact ih.set (List.getElem?_eq_some_iff.mp ht).1 (fun u hu => hsep.close hu) (by simp)
        fun _ => hcrash t op _ hJ

end Accounted

end Machine

end Interleave
