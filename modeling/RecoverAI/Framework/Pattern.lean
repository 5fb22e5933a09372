import Mathlib.Data.List.Basic

/-!
# Regular expressions of `re`

What a pattern matches depends on what stands around it: `^` matches the empty stretch at
the start of a text, `$` the one at its end and also the one before a line break that ends
it. A pattern is given its meaning on a stretch between what is before it and what is after
it, without flags.
-/

namespace Python

inductive Pattern where
  /-- `^` -/
  | start
  /-- `$` -/
  | stop
  /-- `[...]+` -/
  | oneOrMore (isIn : Char → Bool)
  | seq (first second : Pattern)

namespace Pattern

/-- The pattern matches `here`, between `before` and `after`. -/
def Spans : Pattern → List Char → List Char → List Char → Prop
  | .start, before, here, _ => before = [] ∧ here = []
  | .stop, _, here, after => here = [] ∧ (after = [] ∨ after = ['\n'])
  | .oneOrMore isIn, _, here, _ => here ≠ [] ∧ here.all isIn
  | .seq first second, before, here, after => ∃ here₁ here₂, here = here₁ ++ here₂ ∧
      first.Spans before here₁ (here₂ ++ after) ∧ second.Spans (before ++ here₁) here₂ after

/-- `re.match`: the pattern matches a stretch at the start of the text. -/
def Match (pattern : Pattern) (text : List Char) : Prop :=
  ∃ here after, text = here ++ after ∧ pattern.Spans [] here after

/-- `^[...]+$` -/
def wholeOf (isIn : Char → Bool) : Pattern := .seq .start (.seq (.oneOrMore isIn) .stop)

variable {isIn : Char → Bool} {before here after text : List Char}

theorem spans_wholeOf : (wholeOf isIn).Spans before here after ↔
    before = [] ∧ here ≠ [] ∧ here.all isIn ∧ (after = [] ∨ after = ['\n']) := by
  constructor
  · rintro ⟨_, _, rfl, ⟨rfl, rfl⟩, word, _, rfl, ⟨hne, hall⟩, rfl, hafter⟩
    rw [List.append_nil, List.nil_append]
    exact ⟨rfl, hne, hall, hafter⟩
  · rintro ⟨rfl, hne, hall, hafter⟩
    refine ⟨[], here, rfl, ⟨rfl, rfl⟩, here, [], (List.append_nil here).symm, ⟨hne, hall⟩, rfl, ?_⟩
    exact hafter

/-- A text matches `^[...]+$` when it is such a word, or one with a line break behind it. -/
theorem match_wholeOf : (wholeOf isIn).Match text ↔
    ∃ word, word ≠ [] ∧ word.all isIn ∧ (text = word ∨ text = word ++ ['\n']) := by
  constructor
  · rintro ⟨word, after, rfl, hspans⟩
    obtain ⟨-, hne, hall, rfl | rfl⟩ := spans_wholeOf.mp hspans
    · exact ⟨word, hne, hall, .inl (List.append_nil word)⟩
    · exact ⟨word, hne, hall, .inr rfl⟩
  · rintro ⟨word, hne, hall, rfl | rfl⟩
    · exact ⟨text, [], (List.append_nil text).symm, spans_wholeOf.mpr ⟨rfl, hne, hall, .inl rfl⟩⟩
    · exact ⟨word, ['\n'], rfl, spans_wholeOf.mpr ⟨rfl, hne, hall, .inr rfl⟩⟩

end Pattern

end Python
