import Mathlib.Data.List.Basic

/-!
# Precedence in a log

What has to come before what in an append-only log. `Throughout` relates each entry to the
entries before it, and `SinceLast` speaks of the entries since the last one of a kind. The
rules are those for a log that grows at its end.
-/

namespace Interleave

variable {α : Type*} {l l' : List α} {P P' : List α → α → Prop} {p : α → Prop}
  {Q : List α → Prop}

/-- Each entry stands in the relation to what comes before it. -/
def Throughout (P : List α → α → Prop) (l : List α) : Prop :=
  ∀ pre x post, l = pre ++ x :: post → P pre x

/-- The entries since the last one with `p`, which there is, have the property. -/
def SinceLast (p : α → Prop) (Q : List α → Prop) (l : List α) : Prop :=
  ∃ pre x post, l = pre ++ x :: post ∧ p x ∧ (∀ y ∈ post, ¬ p y) ∧ Q post

namespace Throughout

@[simp] theorem nil : Throughout P [] := by
  intro pre x post h
  cases pre <;> cases h

theorem mono (hP : ∀ pre x, P pre x → P' pre x) (h : Throughout P l) : Throughout P' l :=
  fun pre x post hl => hP pre x (h pre x post hl)

/-- The part that is appended follows what was there. -/
theorem append (h : Throughout P l) (h' : Throughout (fun pre x => P (l ++ pre) x) l') :
    Throughout P (l ++ l') := by
  intro pre x post heq
  -- the entry `x` is in the part that is appended, or in what was there
  rcases List.append_eq_append_iff.mp heq with ⟨between, rfl, hl'⟩ | ⟨between, hl, hpost⟩
  · exact h' between x post hl'
  -- at the seam, `x` is the first entry of the appended part
  · cases between with
    | nil =>
      have hfirst := h' [] x post hpost.symm
      rw [List.append_nil] at hl hfirst
      rwa [hl] at hfirst
    | cons y between =>
      obtain ⟨rfl, -⟩ := List.cons_eq_cons.mp hpost
      exact h pre x between hl

@[simp] theorem cons_iff {x : α} :
    Throughout P (x :: l) ↔ P [] x ∧ Throughout (fun pre y => P (x :: pre) y) l := by
  constructor
  · intro h
    exact ⟨h [] x l rfl, fun pre y post hl => h (x :: pre) y post (by rw [hl]; rfl)⟩
  · rintro ⟨hx, hl⟩
    have hone : Throughout P [x] := by
      intro pre y post heq
      cases pre with
      | nil =>
        obtain ⟨rfl, -⟩ := List.cons_eq_cons.mp heq
        exact hx
      | cons z pre => cases pre <;> cases heq
    exact hone.append hl

/-- A relation that looks back only so far. -/
theorem append_of_local (hlocal : ∀ pre x, P pre x → P (l ++ pre) x) (h : Throughout P l)
    (h' : Throughout P l') : Throughout P (l ++ l') := h.append (h'.mono hlocal)

/-- Entries that the relation says nothing about. -/
theorem of_forall (h : ∀ pre, ∀ x ∈ l, P pre x) : Throughout P l := by
  rintro pre x post rfl
  exact h pre x (List.mem_append_right _ List.mem_cons_self)

/-- A relation that only speaks of some entries has to be shown where there is one. -/
theorem of_mem {R : List α → Prop}
    (h : ∀ x ∈ l, p x → Throughout (fun pre y => p y → R pre) l) :
    Throughout (fun pre x => p x → R pre) l :=
  fun pre x post hl hx => h x (by simp [hl]) hx pre x post hl hx

end Throughout

namespace SinceLast

/-- What is before does not matter. -/
theorem append_left (h : SinceLast p Q l) (l' : List α) : SinceLast p Q (l' ++ l) := by
  obtain ⟨pre, x, post, rfl, hx, hpost, hQ⟩ := h
  exact ⟨l' ++ pre, x, post, (List.append_assoc ..).symm, hx, hpost, hQ⟩

/-- Nor what comes after, unless it is of the kind or the property is lost. -/
theorem append_right (h : SinceLast p Q l) (hl' : ∀ y ∈ l', ¬ p y)
    (hQ : ∀ since, Q since → Q (since ++ l')) : SinceLast p Q (l ++ l') := by
  obtain ⟨pre, x, post, rfl, hx, hpost, hsince⟩ := h
  refine ⟨pre, x, post ++ l', by simp, hx, fun y hy => ?_, hQ post hsince⟩
  exact (List.mem_append.mp hy).elim (hpost y) (hl' y)

/-- A part that begins with one of the kind. -/
theorem of_cons {x : α} (hx : p x) (hl : ∀ y ∈ l, ¬ p y) (hQ : Q l) : SinceLast p Q (x :: l) :=
  ⟨[], x, l, rfl, hx, hl, hQ⟩

end SinceLast

end Interleave
