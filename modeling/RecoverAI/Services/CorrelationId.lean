import RecoverAI.Framework.Pattern
import RecoverAI.Services.Requests

/-!
# What the middleware takes for a correlation id

`_safe_correlation_id` in `app/main.py` is there to keep a caller from writing log lines of
its own. Its pattern ends in `$`, which also matches before a line break that ends the
text, so one kind of text gets through that has a line break: a correlation id that leaves
room for it.
-/

namespace RecoverAI

open Python

variable {raw : Option String} {id : String} {fresh : Uuid}

/-- What a correlation id is documented to be. -/
structure CleanCorrelationId (id : String) : Prop where
  nonempty : id.toList ≠ []
  length_le : id.length ≤ correlationIdMaxLength
  chars : id.toList.all isCorrelationIdChar

/-! ### The pattern -/

/-- `_CORRELATION_ID_PATTERN`. -/
def correlationIdPattern : Pattern := .wholeOf isCorrelationIdChar

/-- What the function checks is what the pattern matches. -/
theorem matchesCorrelationIdPattern_iff :
    matchesCorrelationIdPattern id ↔ correlationIdPattern.Match id.toList := by
  rw [correlationIdPattern, Pattern.match_wholeOf]
  unfold matchesCorrelationIdPattern
  by_cases hlast : id.toList.getLast? = some '\n'
  · obtain ⟨front, hfront⟩ := List.getLast?_eq_some_iff.mp hlast
    simp only [hfront, List.getLast?_append, List.getLast?_singleton, Option.some_or, if_true,
      List.dropLast_concat, Bool.and_eq_true, Bool.not_eq_true', List.isEmpty_eq_false_iff]
    constructor
    · rintro ⟨hne, hall⟩
      exact ⟨front, hne, hall, .inr rfl⟩
    · rintro ⟨word, hne, hall, rfl | h⟩
      · -- a word has no line break
        rw [List.all_append, Bool.and_eq_true] at hall
        cases hall.2
      · rw [(List.append_left_inj _).mp h]
        exact ⟨hne, hall⟩
  · simp only [if_neg hlast, Bool.and_eq_true, Bool.not_eq_true', List.isEmpty_eq_false_iff]
    constructor
    · rintro ⟨hne, hall⟩
      exact ⟨_, hne, hall, .inl rfl⟩
    · rintro ⟨word, hne, hall, h | h⟩
      · rw [h]
        exact ⟨hne, hall⟩
      · rw [h, List.getLast?_append] at hlast
        exact absurd rfl hlast

/-! ### What comes out of it -/

theorem isCorrelationIdChar_of_mem_hexDigits {width n : ℕ} {c : Char}
    (h : c ∈ hexDigits width n) : isCorrelationIdChar c := by
  induction width generalizing n with
  | zero => cases h
  | succ width ih =>
    rcases List.mem_append.mp h with h | h
    · exact ih h
    · rw [List.mem_singleton.mp h]
      have hdigits : ∀ d : Fin 16, isCorrelationIdChar (Nat.digitChar d) := by decide
      exact hdigits ⟨n % 16, Nat.mod_lt n (by decide)⟩

theorem mem_uuidGroups {digits : List Char} {c : Char} (h : c ∈ uuidGroups digits) :
    c ∈ digits ∨ c = '-' := by
  simp only [uuidGroups, List.mem_append, List.mem_cons] at h
  rcases h with (((h | h | h) | h | h) | h | h) | h | h
  · exact .inl (List.mem_of_mem_take h)
  · exact .inr h
  · exact .inl (List.mem_of_mem_drop (List.mem_of_mem_take h))
  · exact .inr h
  · exact .inl (List.mem_of_mem_drop (List.mem_of_mem_take h))
  · exact .inr h
  · exact .inl (List.mem_of_mem_drop (List.mem_of_mem_take h))
  · exact .inr h
  · exact .inl (List.mem_of_mem_drop h)

/-- An id that the middleware draws is clean. -/
theorem cleanCorrelationId_uuidText (fresh : Uuid) : CleanCorrelationId (uuidText fresh) where
  nonempty := fun h => uuidText_ne_empty fresh (String.toList_eq_nil_iff.mp h)
  length_le := by
    rw [length_uuidText]
    decide
  chars := by
    have hdash : isCorrelationIdChar '-' := by decide
    rw [List.all_eq_true, uuidText, String.toList_ofList]
    intro c hc
    rcases mem_uuidGroups hc with h | rfl
    · exact isCorrelationIdChar_of_mem_hexDigits h
    · exact hdash

/-- The middleware keeps what has the length and matches the pattern. -/
theorem safeCorrelationId_some (hne : id ≠ "") : safeCorrelationId (some id) fresh =
    if id.length ≤ correlationIdMaxLength ∧ matchesCorrelationIdPattern id then id
    else uuidText fresh := by
  rw [safeCorrelationId, truthy_eq_some_iff.mpr ⟨rfl, hne⟩]

/-- A clean id passes. -/
theorem safeCorrelationId_of_clean (h : CleanCorrelationId id) :
    safeCorrelationId (some id) fresh = id := by
  have hne : id ≠ "" := fun he => h.nonempty (he ▸ rfl)
  have hmatch := Pattern.match_wholeOf.mpr ⟨_, h.nonempty, h.chars, .inl rfl⟩
  rw [safeCorrelationId_some hne, if_pos ⟨h.length_le, matchesCorrelationIdPattern_iff.mpr hmatch⟩]

/-- A clean id with a line break behind it. -/
def Forged (raw : Option String) : Prop :=
  ∃ id, raw = some (id ++ "\n") ∧ CleanCorrelationId id ∧ id.length < correlationIdMaxLength

/-- Such an id passes as well. -/
theorem safeCorrelationId_of_forged (h : CleanCorrelationId id)
    (hlength : id.length < correlationIdMaxLength) :
    safeCorrelationId (some (id ++ "\n")) fresh = id ++ "\n" := by
  have hchars : (id ++ "\n").toList = id.toList ++ ['\n'] := String.toList_append
  have hne : id ++ "\n" ≠ "" := by
    intro he
    rw [he] at hchars
    exact List.append_ne_nil_of_right_ne_nil _ (List.cons_ne_nil _ _) hchars.symm
  have hlength' : (id ++ "\n").length ≤ correlationIdMaxLength := by
    rw [String.length_append]
    exact hlength
  have hmatch : correlationIdPattern.Match (id ++ "\n").toList :=
    Pattern.match_wholeOf.mpr ⟨_, h.nonempty, h.chars, .inr hchars⟩
  rw [safeCorrelationId_some hne, if_pos ⟨hlength', matchesCorrelationIdPattern_iff.mpr hmatch⟩]

theorem CleanCorrelationId.newline_not_mem (h : CleanCorrelationId id) : '\n' ∉ id.toList :=
  fun hmem => absurd (List.all_eq_true.mp h.chars _ hmem) (by decide)

/-- Nothing else does. -/
theorem clean_safeCorrelationId (h : ¬ Forged raw) :
    CleanCorrelationId (safeCorrelationId raw fresh) := by
  unfold safeCorrelationId
  split
  · next r hr =>
    split
    · next hsafe =>
      have hmatch := matchesCorrelationIdPattern_iff.mp hsafe.2
      obtain ⟨word, hne, hall, hword | hword⟩ := Pattern.match_wholeOf.mp hmatch
      · exact ⟨hword ▸ hne, hsafe.1, hword ▸ hall⟩
      · -- the pattern has matched before a line break
        have hr' : r = String.ofList word ++ "\n" := by
          rw [← String.ofList_toList (s := r), hword, String.ofList_append]
        have hlength := hsafe.1
        rw [hr', String.length_append] at hlength
        refine absurd ⟨String.ofList word, ?_, ⟨?_, Nat.le_of_succ_le hlength, ?_⟩, hlength⟩ h
        · rw [← hr']
          exact (truthy_eq_some_iff.mp hr).1
        · rwa [String.toList_ofList]
        · rwa [String.toList_ofList]
    · exact cleanCorrelationId_uuidText fresh
  · exact cleanCorrelationId_uuidText fresh

/-- **Which headers are cleaned.** The result is a clean correlation id, and a clean one is
returned as it is, for every header but a clean id with a line break behind it that still
has the length. -/
theorem safeCorrelationId_clean_iff (raw : Option String) (fresh : Uuid) :
    (CleanCorrelationId (safeCorrelationId raw fresh) ∧
      ∀ id, raw = some id → CleanCorrelationId id → safeCorrelationId raw fresh = id) ↔
    ¬ Forged raw := by
  constructor
  · rintro ⟨hclean, -⟩ ⟨id, rfl, hid, hlength⟩
    rw [safeCorrelationId_of_forged hid hlength] at hclean
    refine hclean.newline_not_mem ?_
    rw [String.toList_append]
    exact List.mem_append_right _ List.mem_cons_self
  · intro h
    refine ⟨clean_safeCorrelationId h, ?_⟩
    rintro id rfl hid
    exact safeCorrelationId_of_clean hid

/-- A second log line can be begun. -/
theorem safeCorrelationId_forged : safeCorrelationId (some "trace\n") 0 = "trace\n" ∧
    ¬ CleanCorrelationId (safeCorrelationId (some "trace\n") 0) := by
  have hclean : CleanCorrelationId "trace" := ⟨by decide, by decide, by decide⟩
  have hout : safeCorrelationId (some "trace\n") 0 = "trace\n" :=
    safeCorrelationId_of_forged hclean (by decide)
  refine ⟨hout, ?_⟩
  rw [hout]
  exact fun h => h.newline_not_mem (by decide)

end RecoverAI
