import RecoverAI.Framework.Solo
import RecoverAI.Framework.Transactions

/-!
# What a program ensures alone

`Machine.Ensures` is partial correctness of a program that runs alone: it says how the
program ends, whatever inputs it consumes. One rule for each way to build a program.

A session that runs alone is the only one with an open transaction (`Txns.only`), so
nothing blocks it and what it sees is what it has flushed on top of what is committed.
-/

namespace Interleave

variable {S : Sig} {Op Shared Input ρ α β : Type}

namespace Machine

/-- Wherever `p` gets to its end alone, as thread `t`, it ends as `Q` says: of its result,
the state it leaves, and the inputs it has not consumed. -/
def Ensures (M : Machine S Op Shared Input ρ) (t : Tid) (p : Prog S α) (s : Shared)
    (is : List Input) (Q : α → Shared → List Input → Prop) : Prop :=
  ∀ r s' is', M.solo t p s is = some (r, s', is') → Q r s' is'

variable {M : Machine S Op Shared Input ρ} {t : Tid} {s s' : Shared} {is : List Input}

theorem ensures_done {a : α} {Q : α → Shared → List Input → Prop} (h : Q a s is) :
    M.Ensures t (.done a) s is Q := by
  intro r s' is' hsolo
  rw [solo_done, Option.some.injEq, Prod.mk.injEq, Prod.mk.injEq] at hsolo
  obtain ⟨rfl, rfl, rfl⟩ := hsolo
  exact h

theorem ensures_call {c : S.Cmd} {k : S.Reply c → Prog S α} {Q : α → Shared → List Input → Prop}
    (h : ∀ i is' r s', is = i :: is' → M.exec t c i s = some (r, s') →
      M.Ensures t (k r) s' is' Q) : M.Ensures t (.call c k) s is Q := by
  intro r s' is' hsolo
  cases is with
  | nil => cases hsolo
  | cons i is =>
    rw [solo] at hsolo
    split at hsolo
    · next q s₁ he => exact h i is q s₁ rfl he r s' is' hsolo
    · cases hsolo

theorem Ensures.bind {p : Prog S α} {f : α → Prog S β} {Q : β → Shared → List Input → Prop}
    (h : M.Ensures t p s is fun a s' is' => M.Ensures t (f a) s' is' Q) :
    M.Ensures t (p >>= f) s is Q := by
  intro r s' is' hsolo
  rw [solo_bind, Option.bind_eq_some_iff] at hsolo
  obtain ⟨⟨a, s₁, is₁⟩, hp, hf⟩ := hsolo
  exact h a s₁ is₁ hp r s' is' hf

theorem Ensures.mono {p : Prog S α} {Q Q' : α → Shared → List Input → Prop}
    (h : M.Ensures t p s is Q) (hQ : ∀ r s' is', Q r s' is' → Q' r s' is') :
    M.Ensures t p s is Q' :=
  fun r s' is' hsolo => hQ r s' is' (h r s' is' hsolo)

/-- What the body of an operation ensures, holds of the operation when it is performed. -/
theorem Ensures.of_perform? {op : Op} {r : ρ} {Q : ρ → Shared → Prop}
    (h : M.Ensures t (M.body op) (M.start t op s) is fun r s' _ => Q r s')
    (hp : M.perform? t op is s = some (r, s')) : ∃ s₁, Q r s₁ ∧ s' = M.close t (some r) s₁ := by
  rw [perform?] at hp
  split at hp
  · next r' s₁ hsolo =>
    rw [Option.some.injEq, Prod.mk.injEq] at hp
    obtain ⟨rfl, rfl⟩ := hp
    exact ⟨s₁, h r' s₁ [] hsolo, rfl⟩
  · cases hp

/-! ### With a willing environment -/

/-- With inputs that are all as `A` says, `p` can get to its end alone, as thread `t`, and end
as `Q` says: of its result and the state it leaves. -/
def Manages (M : Machine S Op Shared Input ρ) (t : Tid) (A : Input → Prop) (p : Prog S α)
    (s : Shared) (Q : α → Shared → Prop) : Prop :=
  ∃ is r s', (∀ i ∈ is, A i) ∧ M.solo t p s is = some (r, s', []) ∧ Q r s'

section Manages

variable {A : Input → Prop}

theorem manages_done {a : α} {Q : α → Shared → Prop} (h : Q a s) : M.Manages t A (.done a) s Q :=
  ⟨[], a, s, fun _ hi => absurd hi List.not_mem_nil, rfl, h⟩

theorem manages_call {c : S.Cmd} {k : S.Reply c → Prog S α} {Q : α → Shared → Prop} {i : Input}
    {r : S.Reply c} (hi : A i) (he : M.exec t c i s = some (r, s'))
    (h : M.Manages t A (k r) s' Q) : M.Manages t A (.call c k) s Q := by
  obtain ⟨is, a, s₁, his, hsolo, hQ⟩ := h
  refine ⟨i :: is, a, s₁, List.forall_mem_cons.mpr ⟨hi, his⟩, ?_, hQ⟩
  rw [solo_call he]
  exact hsolo

theorem Manages.bind {p : Prog S α} {f : α → Prog S β} {Q : β → Shared → Prop}
    (h : M.Manages t A p s fun a s' => M.Manages t A (f a) s' Q) :
    M.Manages t A (p >>= f) s Q := by
  obtain ⟨is, a, s₁, his, hp, is', b, s₂, his', hf, hQ⟩ := h
  refine ⟨is ++ is', b, s₂, List.forall_mem_append.mpr ⟨his, his'⟩, ?_, hQ⟩
  rw [solo_bind, solo_append hp, Option.bind_some]
  exact hf

theorem Manages.mono {p : Prog S α} {Q Q' : α → Shared → Prop} (h : M.Manages t A p s Q)
    (hQ : ∀ r s', Q r s' → Q' r s') : M.Manages t A p s Q' := by
  obtain ⟨is, r, s', his, hsolo, hr⟩ := h
  exact ⟨is, r, s', his, hsolo, hQ r s' hr⟩

/-- What the body of an operation can manage, the operation can when it is performed. -/
theorem Manages.exists_perform? {op : Op} {Q : ρ → Shared → Prop}
    (h : M.Manages t A (M.body op) (M.start t op s) Q) : ∃ is r s₁, (∀ i ∈ is, A i) ∧
      M.perform? t op is s = some (r, M.close t (some r) s₁) ∧ Q r s₁ := by
  obtain ⟨is, r, s₁, his, hsolo, hQ⟩ := h
  exact ⟨is, r, s₁, his, by rw [perform?, hsolo], hQ⟩

end Manages

end Machine

namespace Txns

open Store

variable {Db Stmt Key Err : Type} [Store Db Stmt Key Err] {x : Txns Db Stmt} {t : Tid} {db : Db}
  {sts sts' : List Stmt}

/-- The transaction of `t`, with the statements `sts`, is the only one that is open. -/
def only (t : Tid) (db : Db) (sts : List Stmt) : Txns Db Stmt := ⟨db, sts.map fun st => (t, st)⟩

omit [Store Db Stmt Key Err] in
theorem eq_only (h : x.pending = []) (t : Tid) : x = only t x.db [] := by
  obtain ⟨db, pending⟩ := x
  obtain rfl : pending = [] := h
  rfl

omit [Store Db Stmt Key Err] in
@[simp] theorem only_pendingOf : (only t db sts).pendingOf t = sts := by
  simp [only, pendingOf, List.filter_map, Function.comp_def]

omit [Store Db Stmt Key Err] in
@[simp] theorem only_others : (only t db sts).others t = [] := by
  simp [only, others, List.filter_map, Function.comp_def]

omit [Store Db Stmt Key Err] in
theorem only_rollback : (only t db sts).rollback t = only t db [] := by
  rw [rollback, only_others]
  rfl

theorem only_view : (only t db sts).view t = applyAll sts db := by
  rw [view, only_pendingOf]
  rfl

theorem only_commit : (only t db sts).commit t = only t (applyAll sts db) [] := by
  rw [commit, only_others, only_view]
  rfl

/-- Nothing blocks the only transaction. -/
theorem only_flush [DecidableEq Key] (h : checkAll sts' (applyAll sts db) = none) :
    (only t db sts).flush t sts' = some (.ok (), only t db (sts ++ sts')) := by
  have hblocked : ¬ (only t db sts).Blocked t sts' := by
    rintro ⟨p, hp, -⟩
    rw [only_others] at hp
    cases hp
  rw [flush, if_neg hblocked, only_view, h, enlist, only, only, List.map_append]

/-- And what a constraint refuses takes the transaction back. -/
theorem only_flush_refused [DecidableEq Key] {e : Err}
    (h : checkAll sts' (applyAll sts db) = some e) :
    (only t db sts).flush t sts' = some (.error e, only t db []) := by
  have hblocked : ¬ (only t db sts).Blocked t sts' := by
    rintro ⟨p, hp, -⟩
    rw [only_others] at hp
    cases hp
  rw [flush, if_neg hblocked, only_view, h, only_rollback]

end Txns

end Interleave
