import RecoverAI.Framework.Table
import RecoverAI.Framework.Threads

/-!
# Transactions over a shared store

A relational database at read-committed isolation, seen by the sessions that use
it. A statement flushed by a session is checked against what the session sees
(`Txns.view`) and stays invisible to the others until the session commits; the
keys it touches (`Store.keys`) are held until then, and another session that
needs one of them has to wait (`Txns.Blocked`).

`Store` is what a database has to provide, `LawfulStore` the frame conditions
that make waiting sufficient: a statement reads and changes nothing outside its
keys. From them follows the isolation invariant `Txns.Isolated`: the statements
of an open transaction still pass their checks on the committed state, however
many other transactions have committed since they were flushed.
-/

namespace Interleave

/-- A database: how a statement is checked, what it does, and the keys it holds
until its transaction ends. -/
class Store (Db : Type) (Stmt Key Err : outParam Type) where
  /-- The error a statement is refused with, if it is. -/
  check : Stmt → Db → Option Err
  /-- The effect of a statement that passed. -/
  apply : Stmt → Db → Db
  /-- What the statement locks. -/
  keys : Stmt → List Key

/-- The frame conditions. `same k db db'` says that two states agree on whatever
the key `k` protects. -/
class LawfulStore (Db : Type) (Stmt Key Err : outParam Type) extends Store Db Stmt Key Err where
  /-- Two states agree on what a key protects. -/
  same : Key → Db → Db → Prop
  same_refl : ∀ k db, same k db db
  same_trans : ∀ k db₁ db₂ db₃, same k db₁ db₂ → same k db₂ db₃ → same k db₁ db₃
  /-- A check depends on the keys of its statement only. -/
  check_congr : ∀ st db db', (∀ k ∈ keys st, same k db db') → check st db' = check st db
  /-- A statement does the same to states that agree. -/
  apply_congr : ∀ st k db db', same k db db' → same k (apply st db) (apply st db')
  /-- A statement changes nothing outside its keys. -/
  apply_frame : ∀ st k db, k ∉ keys st → same k db (apply st db)

namespace Store

variable {Db Stmt Key Err : Type} [Store Db Stmt Key Err]

/-- The effect of a list of statements, in order. -/
def applyAll (sts : List Stmt) (db : Db) : Db := sts.foldl (fun db st => apply st db) db

/-- The first error of a list of statements, each checked after those before it. -/
def checkAll : List Stmt → Db → Option Err
  | [], _ => none
  | st :: sts, db => (check st db).or (checkAll sts (apply st db))

@[simp] theorem applyAll_nil (db : Db) : applyAll ([] : List Stmt) db = db := rfl

@[simp] theorem applyAll_cons (st : Stmt) (sts : List Stmt) (db : Db) :
    applyAll (st :: sts) db = applyAll sts (apply st db) := rfl

theorem applyAll_append (sts sts' : List Stmt) (db : Db) :
    applyAll (sts ++ sts') db = applyAll sts' (applyAll sts db) := List.foldl_append ..

theorem checkAll_append (sts sts' : List Stmt) (db : Db) :
    checkAll (sts ++ sts') db = (checkAll sts db).or (checkAll sts' (applyAll sts db)) := by
  induction sts generalizing db with
  | nil => rfl
  | cons st sts ih => simp [checkAll, ih, Option.or_assoc]

theorem checkAll_cons_eq_none {st : Stmt} {sts : List Stmt} {db : Db} :
    checkAll (st :: sts) db = none ↔ check st db = none ∧ checkAll sts (apply st db) = none := by
  simp [checkAll, Option.or_eq_none_iff]

section Rules

variable {sts : List Stmt} {db : Db} {I : Db → Prop} {α : Type}

/-- What each of some statements keeps, all of them keep. -/
theorem applyAll_invariant (h : ∀ st ∈ sts, ∀ db, I db → I (apply st db)) (hdb : I db) :
    I (applyAll sts db) := by
  induction sts generalizing db with
  | nil => exact hdb
  | cons st sts ih =>
    obtain ⟨hst, hsts⟩ := List.forall_mem_cons.mp h
    exact ih hsts (hst db hdb)

/-- The rule for statements that pass their checks. -/
theorem applyAll_invariant_of_checkAll (h : ∀ st db, check st db = none → I db → I (apply st db))
    (hc : checkAll sts db = none) (hdb : I db) : I (applyAll sts db) := by
  induction sts generalizing db with
  | nil => exact hdb
  | cons st sts ih =>
    obtain ⟨hst, hsts⟩ := checkAll_cons_eq_none.mp hc
    exact ih hsts (h st db hst hdb)

/-- What a view shows does not change if no statement changes it. -/
theorem applyAll_unchanged (view : Db → α) (h : ∀ st ∈ sts, ∀ db, view (apply st db) = view db) :
    view (applyAll sts db) = view db :=
  applyAll_invariant (I := fun db' => view db' = view db) (fun st hst db' hdb' =>
    (h st hst db').trans hdb') rfl

/-- A list that each statement extends by what it adds is extended by what all of them add. -/
theorem applyAll_adds (view : Db → List α) {adds : Stmt → Option α}
    (h : ∀ st db, view (apply st db) = view db ++ [st].filterMap adds) :
    view (applyAll sts db) = view db ++ sts.filterMap adds := by
  induction sts generalizing db with
  | nil => exact (List.append_nil _).symm
  | cons st sts ih =>
    rw [applyAll_cons, ih, h, List.append_assoc, ← List.filterMap_append, List.singleton_append]

end Rules

end Store

namespace LawfulStore

open Store

variable {Db Stmt Key Err : Type} [LawfulStore Db Stmt Key Err] {sts sts' : List Stmt} {db db' : Db}
  {k : Key}

/-- The checks of a list of statements depend on their keys only. -/
theorem checkAll_congr (h : ∀ st ∈ sts, ∀ k ∈ keys Db st, same k db db') :
    checkAll sts db' = checkAll sts db := by
  induction sts generalizing db db' with
  | nil => rfl
  | cons st sts ih =>
    have hst := h st List.mem_cons_self
    rw [checkAll, checkAll, check_congr st db db' hst]
    congr 1
    exact ih fun st' hst' k hk =>
      apply_congr st k db db' (h st' (List.mem_cons_of_mem _ hst') k hk)

/-- A list of statements changes nothing outside its keys. -/
theorem applyAll_frame (h : ∀ st ∈ sts, k ∉ keys Db st) : same k db (applyAll sts db) := by
  induction sts generalizing db with
  | nil => exact same_refl k db
  | cons st sts ih =>
    exact same_trans k _ _ _ (apply_frame st k db (h st List.mem_cons_self))
      (ih fun st' hst' => h st' (List.mem_cons_of_mem _ hst'))

/-- Statements over other keys do not spoil the checks. -/
theorem checkAll_applyAll (h : ∀ st ∈ sts, ∀ k ∈ keys Db st, ∀ st' ∈ sts', k ∉ keys Db st') :
    checkAll sts (applyAll sts' db) = checkAll sts db :=
  checkAll_congr fun st hst k hk => applyAll_frame fun st' hst' => h st hst k hk st' hst'

end LawfulStore

/-- The committed state, and the statements flushed by transactions that are
still open, in the order in which they were flushed. -/
structure Txns (Db Stmt : Type) where
  db : Db
  pending : List (Tid × Stmt)

namespace Txns

open Store

variable {Db Stmt Key Err : Type} {x : Txns Db Stmt} {t u : Tid} {sts : List Stmt} {st : Stmt}

/-- What transaction `t` has flushed and not committed. -/
def pendingOf (x : Txns Db Stmt) (t : Tid) : List Stmt :=
  (x.pending.filter fun p => p.1 = t).map Prod.snd

/-- The statements of the other open transactions. -/
def others (x : Txns Db Stmt) (t : Tid) : List (Tid × Stmt) :=
  x.pending.filter fun p => p.1 ≠ t

/-- End the transaction of `t` without its statements. -/
def rollback (x : Txns Db Stmt) (t : Tid) : Txns Db Stmt := { x with pending := x.others t }

/-- Add checked statements to the transaction of `t`. -/
def enlist (x : Txns Db Stmt) (t : Tid) (sts : List Stmt) : Txns Db Stmt :=
  { x with pending := x.pending ++ sts.map fun st => (t, st) }

theorem mem_pendingOf : st ∈ x.pendingOf t ↔ (t, st) ∈ x.pending := by
  simp [pendingOf]

theorem mem_others {p : Tid × Stmt} : p ∈ x.others t ↔ p ∈ x.pending ∧ p.1 ≠ t := by
  simp [others]

@[simp] theorem rollback_db (x : Txns Db Stmt) (t : Tid) : (x.rollback t).db = x.db := rfl

@[simp] theorem enlist_db (x : Txns Db Stmt) (t : Tid) (sts : List Stmt) :
    (x.enlist t sts).db = x.db := rfl

@[simp] theorem rollback_pendingOf (x : Txns Db Stmt) (t : Tid) :
    (x.rollback t).pendingOf t = [] := by
  simp [pendingOf, rollback, others, List.filter_filter]

theorem rollback_pendingOf_ne (h : u ≠ t) : (x.rollback t).pendingOf u = x.pendingOf u := by
  rw [pendingOf, pendingOf, rollback, others, List.filter_filter]
  congr 1
  refine List.filter_congr fun p _ => ?_
  by_cases hp : p.1 = u <;> simp [hp, h]

@[simp] theorem enlist_pendingOf (x : Txns Db Stmt) (t : Tid) (sts : List Stmt) :
    (x.enlist t sts).pendingOf t = x.pendingOf t ++ sts := by
  simp [pendingOf, enlist, List.filter_append, List.filter_map, Function.comp_def]

theorem enlist_pendingOf_ne (h : u ≠ t) : (x.enlist t sts).pendingOf u = x.pendingOf u := by
  have ht : ¬ t = u := fun e => h e.symm
  simp [pendingOf, enlist, List.filter_append, List.filter_map, Function.comp_def, ht]

section Operations

variable [Store Db Stmt Key Err]

/-- What transaction `t` sees: the committed state and its own statements. -/
def view (x : Txns Db Stmt) (t : Tid) : Db := applyAll (x.pendingOf t) x.db

/-- Another open transaction holds a key that `sts` needs. -/
def Blocked (x : Txns Db Stmt) (t : Tid) (sts : List Stmt) : Prop :=
  ∃ p ∈ x.others t, ∃ k ∈ keys Db p.2, ∃ st ∈ sts, k ∈ keys Db st

instance [DecidableEq Key] (x : Txns Db Stmt) (t : Tid) (sts : List Stmt) :
    Decidable (x.Blocked t sts) := by
  unfold Blocked
  infer_instance

/-- Flush statements: wait (`none`) while another transaction holds one of their
keys, otherwise check them. An error ends the transaction. A circle of waiting
sessions is broken by the database, which aborts one of them; as no service
handles that error, it is one of the ways in which an operation may stop
(`Action.crash`). -/
def flush [DecidableEq Key] (x : Txns Db Stmt) (t : Tid) (sts : List Stmt) :
    Option (Except Err Unit × Txns Db Stmt) :=
  if x.Blocked t sts then none
  else
    match checkAll sts (x.view t) with
    | some e => some (.error e, x.rollback t)
    | none => some (.ok (), x.enlist t sts)

/-- Commit the transaction of `t`. -/
def commit (x : Txns Db Stmt) (t : Tid) : Txns Db Stmt := ⟨x.view t, x.others t⟩

@[simp] theorem commit_db (x : Txns Db Stmt) (t : Tid) :
    (x.commit t).db = applyAll (x.pendingOf t) x.db := rfl

@[simp] theorem commit_pendingOf (x : Txns Db Stmt) (t : Tid) :
    (x.commit t).pendingOf t = [] := rollback_pendingOf x t

theorem commit_pendingOf_ne (h : u ≠ t) : (x.commit t).pendingOf u = x.pendingOf u :=
  rollback_pendingOf_ne h

theorem flush_cases [DecidableEq Key] {r : Except Err Unit} {y : Txns Db Stmt}
    (h : x.flush t sts = some (r, y)) : ¬ x.Blocked t sts ∧
      ((∃ e, r = .error e ∧ checkAll sts (x.view t) = some e ∧ y = x.rollback t) ∨
        (r = .ok () ∧ checkAll sts (x.view t) = none ∧ y = x.enlist t sts)) := by
  unfold flush at h
  split at h
  · cases h
  · next hb =>
    refine ⟨hb, ?_⟩
    split at h <;> cases h
    · next e he => exact .inl ⟨e, rfl, he, rfl⟩
    · next he => exact .inr ⟨rfl, he, rfl⟩

end Operations

/-! ### Isolation -/

section Isolation

variable [LawfulStore Db Stmt Key Err]

/-- **Isolation.** Open transactions hold disjoint keys, and the statements of
each still pass their checks on the committed state. -/
structure Isolated (x : Txns Db Stmt) : Prop where
  disjoint : ∀ t u st st', (t, st) ∈ x.pending → (u, st') ∈ x.pending → t ≠ u →
    ∀ k ∈ keys Db st, k ∉ keys Db st'
  checked : ∀ t, checkAll (x.pendingOf t) x.db = none

namespace Isolated

theorem of_db (db : Db) : Isolated (⟨db, []⟩ : Txns Db Stmt) where
  disjoint := fun t u st st' h => by cases h
  checked := fun t => rfl

theorem rollback (h : Isolated x) (t : Tid) : Isolated (x.rollback t) where
  disjoint := fun u v st st' hst hst' =>
    h.disjoint u v st st' (mem_others.mp hst).1 (mem_others.mp hst').1
  checked := by
    intro u
    by_cases hu : u = t
    · rw [hu, rollback_pendingOf]; rfl
    · rw [rollback_pendingOf_ne hu]; exact h.checked u

theorem enlist (h : Isolated x) (hb : ¬ x.Blocked t sts)
    (hc : checkAll sts (x.view t) = none) : Isolated (x.enlist t sts) where
  disjoint := by
    -- a new statement needs no key that another transaction holds
    have hnew : ∀ u st st', st ∈ sts → (u, st') ∈ x.pending → u ≠ t →
        ∀ k ∈ keys Db st, k ∉ keys Db st' := fun u st st' hst hu hut k hk hk' =>
      hb ⟨(u, st'), mem_others.mpr ⟨hu, hut⟩, k, hk', st, hst, hk⟩
    -- two pending statements are both old, one old and one new, or both of `t`
    intro u v st st' hst hst' huv k hk hk'
    rw [Txns.enlist, List.mem_append, List.mem_map] at hst hst'
    rcases hst with hst | ⟨a, ha, he⟩ <;> rcases hst' with hst' | ⟨a', ha', he'⟩
    · exact h.disjoint u v st st' hst hst' huv k hk hk'
    · cases he'
      exact hnew u st' st ha' hst huv k hk' hk
    · cases he
      exact hnew v st st' ha hst' (Ne.symm huv) k hk hk'
    · cases he; cases he'; exact huv rfl
  checked := by
    -- the view of `t` has grown by what has just been checked, the others' views are as before
    intro u
    by_cases hu : u = t
    · subst hu
      rw [enlist_pendingOf, enlist_db, checkAll_append, h.checked u]
      exact hc
    · rw [enlist_pendingOf_ne hu]; exact h.checked u

theorem commit (h : Isolated x) (t : Tid) : Isolated (x.commit t) where
  disjoint := fun u v st st' hst hst' =>
    h.disjoint u v st st' (mem_others.mp hst).1 (mem_others.mp hst').1
  checked := by
    intro u
    by_cases hu : u = t
    · rw [hu, commit_pendingOf]; rfl
    · rw [commit_pendingOf_ne hu, commit_db, LawfulStore.checkAll_applyAll]
      · exact h.checked u
      · intro st hst k hk st' hst'
        exact h.disjoint u t st st' (mem_pendingOf.mp hst) (mem_pendingOf.mp hst') hu k hk

end Isolated

end Isolation

end Txns

end Interleave
