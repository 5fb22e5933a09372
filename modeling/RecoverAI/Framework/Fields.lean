import Mathlib.Data.List.Basic

/-!
# Fields joined by a separator

Lists of fields are written one after the other, a separator between any two. Nothing
escapes a separator inside a field, so a joined text tells its pieces, but which pieces
make up a field is lost: the fields can be read back only when it is known how many
separators each of them has.
-/

namespace Joined

variable {α : Type} [BEq α] [LawfulBEq α] {separator : α} {field : List α}
  {fields fields' : List (List α)}

/-- The pieces of the fields, each field cut at its separators. -/
def pieces (separator : α) (fields : List (List α)) : List (List α) :=
  fields.flatMap (List.splitOn separator)

/-- How many separators each field has. -/
def separators (separator : α) (fields : List (List α)) : List ℕ :=
  fields.map (List.count separator)

theorem splitOn_injective : Function.Injective (List.splitOn separator) := by
  intro xs ys h
  calc xs = [separator].intercalate (xs.splitOn separator) := (List.intercalate_splitOn separator).symm
    _ = [separator].intercalate (ys.splitOn separator) := by rw [h]
    _ = ys := List.intercalate_splitOn separator

omit [LawfulBEq α] in
theorem length_splitOn : (field.splitOn separator).length = field.count separator + 1 := by
  induction field with
  | nil => rfl
  | cons x xs ih =>
    rw [List.splitOn_cons_eq_if_modifyHead, List.count_cons]
    by_cases h : x == separator
    · rw [if_pos h, if_pos h, List.length_cons, ih]
    · rw [if_neg h, if_neg h, List.length_modifyHead, ih, Nat.add_zero]

/-- Cutting a joined text gives the pieces of its fields. -/
theorem splitOn_intercalate (h : fields ≠ []) :
    ([separator].intercalate fields).splitOn separator = pieces separator fields := by
  -- the field before a separator is cut off as it stands: only its own pieces are in front
  induction fields with
  | nil => exact absurd rfl h
  | cons field rest ih =>
    cases rest with
    | nil => simp [pieces]
    | cons next rest =>
      have hrest := ih (List.cons_ne_nil next rest)
      rw [List.intercalate_cons_of_ne_nil (List.cons_ne_nil next rest)]
      rw [List.append_assoc, List.singleton_append, List.splitOn_append_cons_self, hrest]
      rfl

/-- Two joined texts are the same exactly when they have the same pieces. -/
theorem intercalate_eq_iff (h : fields ≠ []) (h' : fields' ≠ []) :
    [separator].intercalate fields = [separator].intercalate fields' ↔
      pieces separator fields = pieces separator fields' := by
  rw [← splitOn_intercalate h, ← splitOn_intercalate h']
  exact splitOn_injective.eq_iff.symm

/-- The pieces and the number of separators in each field are the fields. -/
theorem eq_iff (separator : α) : fields = fields' ↔
    pieces separator fields = pieces separator fields' ∧
      separators separator fields = separators separator fields' := by
  constructor
  · rintro rfl
    exact ⟨rfl, rfl⟩
  · rintro ⟨hpieces, hseparators⟩
    -- both lists are read from the left: equal counts make the first fields equally many pieces
    induction fields generalizing fields' with
    | nil =>
      cases fields' with
      | nil => rfl
      | cons => cases hseparators
    | cons field rest ih =>
      cases fields' with
      | nil => cases hseparators
      | cons field' rest' =>
        obtain ⟨hcount, hcounts⟩ := List.cons.inj hseparators
        have hlength : (field.splitOn separator).length = (field'.splitOn separator).length := by
          rw [length_splitOn, length_splitOn, hcount]
        -- so the pieces split at the same place
        obtain ⟨hfield, hrest⟩ := List.append_inj
          (show field.splitOn separator ++ pieces separator rest =
            field'.splitOn separator ++ pieces separator rest' from hpieces) hlength
        rw [splitOn_injective hfield, ih hrest hcounts]

/-- Joining tells two lists of fields apart exactly when lists with the same pieces have
their separators in the same fields. -/
theorem intercalate_faithful_iff (h : fields ≠ []) (h' : fields' ≠ []) :
    ([separator].intercalate fields = [separator].intercalate fields' ↔ fields = fields') ↔
      (pieces separator fields = pieces separator fields' →
        separators separator fields = separators separator fields') := by
  have hfields : fields = fields' ↔ pieces separator fields = pieces separator fields' ∧
      separators separator fields = separators separator fields' := eq_iff separator
  rw [intercalate_eq_iff h h', hfields]
  constructor
  · intro hiff hpieces
    exact (hiff.mp hpieces).2
  · intro hsame
    exact ⟨fun hpieces => ⟨hpieces, hsame hpieces⟩, fun hboth => hboth.1⟩

/-- Fields without separators are their own pieces. -/
theorem pieces_of_not_mem (h : ∀ field ∈ fields, separator ∉ field) :
    pieces separator fields = fields := by
  induction fields with
  | nil => rfl
  | cons field rest ih =>
    have hrest := ih fun other hother => h other (List.mem_cons_of_mem field hother)
    show field.splitOn separator ++ pieces separator rest = field :: rest
    rw [List.splitOn_eq_singleton (h field List.mem_cons_self), hrest]
    rfl

end Joined
