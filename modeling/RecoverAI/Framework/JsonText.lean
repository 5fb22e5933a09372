import RecoverAI.Framework.JsonTokens

/-!
# JSON text

`json.dumps`, compact or with an indent, and `json.loads`. The two layouts differ in white
space only (`Layout`), and `loads` does not see it: whatever the layout, a value comes back as
it was written (`loads_dumps`), provided its floats do. Members come back in their order, with
the repeated ones.

The limits of the interpreter are left out: on the depth of a value, and on the digits of an
integer.
-/

namespace Python

namespace Json

/-! ### Induction over values -/

/-- **Induction over a value**, its items and its members. -/
theorem induction {motive : Json → Prop} (null : motive .null) (bool : ∀ b, motive (.bool b))
    (int : ∀ n, motive (.int n)) (float : ∀ x, motive (.float x))
    (string : ∀ text, motive (.string text))
    (array : ∀ items, (∀ v ∈ items, motive v) → motive (.array items))
    (object : ∀ members, (∀ m ∈ members, motive m.2) → motive (.object members)) (v : Json) :
    motive v :=
  -- The type is nested, so its recursor has a motive for lists of items, for lists of members and
  -- for single members as well.
  @Json.rec motive (fun items => ∀ v ∈ items, motive v) (fun members => ∀ m ∈ members, motive m.2)
    (fun m => motive m.2) null bool int float string array object
    (fun _ h => absurd h List.not_mem_nil)
    (fun _ _ hv hitems => List.forall_mem_cons.mpr ⟨hv, hitems⟩)
    (fun _ h => absurd h List.not_mem_nil)
    (fun _ _ hm hmembers => List.forall_mem_cons.mpr ⟨hm, hmembers⟩)
    (fun _ _ hv => hv) v

/-! ### Writing a value -/

/-- Where white space is written, by the depth: after an opening bracket, after a comma and
before a closing bracket. -/
structure Layout where
  inner : ℕ → List Char
  between : ℕ → List Char
  outer : ℕ → List Char
  spaces : ∀ depth, ∀ c ∈ inner depth ++ between depth ++ outer depth, isSpace c = true

/-- `json.dumps(value)` -/
def compact : Layout where
  inner := fun _ => []
  between := fun _ => [' ']
  outer := fun _ => []
  spaces := by
    intro depth c hc
    rw [List.nil_append, List.append_nil, List.mem_singleton] at hc
    rw [hc]
    rfl

/-- A line break and the indent of a depth. -/
def newline (width depth : ℕ) : List Char := '\n' :: List.replicate (width * depth) ' '

/-- The break and the indent are white space. -/
theorem isSpace_of_mem_newline {width depth : ℕ} {c : Char} (h : c ∈ newline width depth) :
    isSpace c = true := by
  rcases List.mem_cons.mp h with rfl | h
  · rfl
  · rw [List.eq_of_mem_replicate h]
    rfl

/-- `json.dumps(value, indent=width)` -/
def indented (width : ℕ) : Layout where
  inner := fun depth => newline width (depth + 1)
  between := fun depth => newline width (depth + 1)
  outer := fun depth => newline width depth
  spaces := by
    intro depth c hc
    simp only [List.mem_append] at hc
    rcases hc with (hc | hc) | hc <;> exact isSpace_of_mem_newline hc

/-- A float; `repr` is `float.__repr__` on the finite ones. -/
def floatText (repr : ℚ → List Char) : Float → List Char
  | .finite x => repr x
  | .infinite false => "Infinity".toList
  | .infinite true => "-Infinity".toList
  | .nan => "NaN".toList

mutual

def dumpsAt (layout : Layout) (repr : ℚ → List Char) (depth : ℕ) : Json → List Char
  | .null => "null".toList
  | .bool true => "true".toList
  | .bool false => "false".toList
  | .int n => intText n
  | .float x => floatText repr x
  | .string text => stringText text
  | .array [] => "[]".toList
  | .array (v :: items) => '[' :: (layout.inner depth ++ dumpsAt layout repr (depth + 1) v ++
      dumpsItems layout repr depth items ++ layout.outer depth ++ [']'])
  | .object [] => ['\x7b', '\x7d']
  | .object ((key, v) :: members) =>
    '\x7b' :: (layout.inner depth ++ stringText key ++ ':' :: ' ' ::
      dumpsAt layout repr (depth + 1) v ++ dumpsMembers layout repr depth members ++
      layout.outer depth ++ ['\x7d'])

/-- The items after the first one. -/
def dumpsItems (layout : Layout) (repr : ℚ → List Char) (depth : ℕ) : List Json → List Char
  | [] => []
  | v :: items => ',' :: (layout.between depth ++ dumpsAt layout repr (depth + 1) v ++
      dumpsItems layout repr depth items)

/-- The members after the first one. -/
def dumpsMembers (layout : Layout) (repr : ℚ → List Char) (depth : ℕ) :
    List (String × Json) → List Char
  | [] => []
  | (key, v) :: members => ',' :: (layout.between depth ++ stringText key ++ ':' :: ' ' ::
      dumpsAt layout repr (depth + 1) v ++ dumpsMembers layout repr depth members)

end

/-- `json.dumps` -/
def dumps (layout : Layout) (repr : ℚ → List Char) (value : Json) : String :=
  String.ofList (dumpsAt layout repr 0 value)

/-! ### Reading a value -/

/-- What follows the white space. -/
def skip (s : List Char) : List Char := s.dropWhile isSpace

/-- What follows a word. -/
def scanWord : List Char → List Char → Option (List Char)
  | [], s => some s
  | _ :: _, [] => none
  | c :: word, c' :: s => if c = c' then scanWord word s else none

/-- The names of constants. -/
def constants : List (List Char × Json) :=
  [("null".toList, .null), ("true".toList, .bool true), ("false".toList, .bool false),
    ("NaN".toList, .float .nan), ("Infinity".toList, .float (.infinite false)),
    ("-Infinity".toList, .float (.infinite true))]

/-- A number or a constant. No number begins like a constant. -/
def scanAtom (s : List Char) : Option (Json × List Char) :=
  (scanNumber s).or (constants.findSome? fun p => (scanWord p.1 s).map fun rest => (p.2, rest))

mutual

/-- `scan_once`, to some depth. -/
def scanValue : ℕ → List Char → Option (Json × List Char)
  | 0, _ => none
  | _ + 1, [] => none
  | fuel + 1, c :: s =>
    if c = '"' then (scanString s).map fun p => (.string (String.ofList p.1), p.2)
    else if c = '[' then
      match skip s with
      | ']' :: s => some (.array [], s)
      | s => (scanItems fuel s).map fun p => (.array p.1, p.2)
    else if c = '\x7b' then
      match skip s with
      | '\x7d' :: s => some (.object [], s)
      | s => (scanMembers fuel s).map fun p => (.object p.1, p.2)
    else scanAtom (c :: s)

/-- One or more items, and the closing bracket. -/
def scanItems : ℕ → List Char → Option (List Json × List Char)
  | 0, _ => none
  | fuel + 1, s =>
    match scanValue fuel s with
    | none => none
    | some (v, s) =>
      match skip s with
      | ']' :: s => some ([v], s)
      | ',' :: s => (scanItems fuel (skip s)).map fun p => (v :: p.1, p.2)
      | _ => none

/-- One or more members, and the closing brace. -/
def scanMembers : ℕ → List Char → Option (List (String × Json) × List Char)
  | 0, _ => none
  | fuel + 1, '"' :: s =>
    match scanString s with
    | none => none
    | some (key, s) =>
      match skip s with
      | ':' :: s =>
        match scanValue fuel (skip s) with
        | none => none
        | some (v, s) =>
          match skip s with
          | '\x7d' :: s => some ([(String.ofList key, v)], s)
          | ',' :: s =>
            (scanMembers fuel (skip s)).map fun p => ((String.ofList key, v) :: p.1, p.2)
          | _ => none
      | _ => none
  | _ + 1, _ => none

end

/-- `json.loads`: a value with nothing but white space around it. -/
def loads (text : String) : Option Json :=
  match scanValue text.length (skip text.toList) with
  | some (value, rest) => if skip rest = [] then some value else none
  | none => none

/-! ### White space -/

/-- White space is skipped. -/
theorem skip_append {spaces s : List Char} (h : ∀ c ∈ spaces, isSpace c = true) :
    skip (spaces ++ s) = skip s := by
  induction spaces with
  | nil => rfl
  | cons c spaces ih =>
    obtain ⟨hc, hspaces⟩ := List.forall_mem_cons.mp h
    -- The first character is dropped, and then the others.
    rw [← ih hspaces]
    exact List.dropWhile_cons_of_pos hc

/-- And nothing else is. -/
theorem skip_cons {c : Char} {s : List Char} (h : isSpace c = false) : skip (c :: s) = c :: s :=
  List.dropWhile_cons_of_neg (by simp [h])

/-- White space ends a value, and so does what may follow it. -/
theorem stops_append {spaces s : List Char} (h : ∀ c ∈ spaces, isSpace c = true) (hs : Stops s) :
    Stops (spaces ++ s) := by
  cases spaces with
  | nil => exact hs
  | cons c spaces =>
    refine stops_cons ?_
    rw [isStop, h c List.mem_cons_self]
    rfl

namespace Layout

variable (layout : Layout) (depth : ℕ)

theorem isSpace_inner : ∀ c ∈ layout.inner depth, isSpace c = true := fun c hc =>
  layout.spaces depth c (List.mem_append_left _ (List.mem_append_left _ hc))

theorem isSpace_between : ∀ c ∈ layout.between depth, isSpace c = true := fun c hc =>
  layout.spaces depth c (List.mem_append_left _ (List.mem_append_right _ hc))

theorem isSpace_outer : ∀ c ∈ layout.outer depth, isSpace c = true := fun c hc =>
  layout.spaces depth c (List.mem_append_right _ hc)

end Layout

/-! ### Atoms -/

/-- The character begins a value that is neither a string nor has parts. -/
structure BeginsAtom (c : Char) : Prop where
  quote : c ≠ '"'
  bracket : c ≠ '['
  brace : c ≠ '\x7b'
  closing : c ≠ ']'
  space : isSpace c = false

/-- A digit begins an atom. -/
theorem beginsAtom_of_isDigit {c : Char} (h : c.isDigit = true) : BeginsAtom c := by
  constructor
  case space =>
    -- White space stops a number, and no digit does.
    by_contra hspace
    rw [Bool.not_eq_false] at hspace
    have hstop : isStop c = true := by
      rw [isStop, hspace]
      rfl
    rw [(not_isDigit_of_isStop hstop).1] at h
    cases h
  all_goals
    rintro rfl
    cases h

/-- A number begins with a digit or a sign. -/
theorem beginsAtom_of_scanNumber {s : List Char} {p : Json × List Char}
    (h : scanNumber s = some p) : ∃ c t, s = c :: t ∧ BeginsAtom c ∧ (c.isDigit ∨ c = '-') := by
  cases s with
  | nil => cases h
  | cons c t =>
    refine ⟨c, t, rfl, ?_⟩
    -- Either the sign comes first, or the digits do.
    by_cases hminus : c = '-'
    · subst hminus
      exact ⟨⟨by decide, by decide, by decide, by decide, by decide⟩, .inr rfl⟩
    · -- Without a digit there is no integer part, and so no number.
      have hdigit : c.isDigit = true := by
        by_contra hno
        have hzero : c ≠ '0' := fun he => by
          rw [he] at hno
          exact hno rfl
        rw [scanNumber, scanMinus, if_neg hminus] at h
        simp only [scanInteger, if_neg hzero, if_neg hno] at h
        cases h
      exact ⟨beginsAtom_of_isDigit hdigit, .inl hdigit⟩

/-- The name of a constant is read as the constant. -/
theorem scanAtom_constant {word : List Char} {v : Json} (h : (word, v) ∈ constants)
    (rest : List Char) : scanAtom (word ++ rest) = some (v, rest) := by
  simp only [constants, List.mem_cons, List.not_mem_nil, or_false, Prod.mk.injEq] at h
  rcases h with ⟨rfl, rfl⟩ | ⟨rfl, rfl⟩ | ⟨rfl, rfl⟩ | ⟨rfl, rfl⟩ | ⟨rfl, rfl⟩ | ⟨rfl, rfl⟩ <;> rfl

/-- A float comes back: Python reads what it writes as the same number. -/
def ReadsBack (repr : ℚ → List Char) (x : ℚ) : Prop :=
  scanNumber (repr x) = some (.float (.finite x), [])

/-- A number is read as a number. -/
theorem scanAtom_number {s rest : List Char} {v : Json} (h : scanNumber s = some (v, []))
    (hrest : Stops rest) : scanAtom (s ++ rest) = some (v, rest) := by
  rw [scanAtom, scanNumber_append hrest h, Option.some_or]

/-- The text is that of a value without parts that is not a string. -/
structure IsAtom (s : List Char) (v : Json) : Prop where
  begins : ∃ c t, s = c :: t ∧ BeginsAtom c
  scan : ∀ rest, Stops rest → scanAtom (s ++ rest) = some (v, rest)

/-- The name of a constant is the text of one. -/
theorem isAtom_constant {word : List Char} {v : Json} (h : (word, v) ∈ constants) :
    IsAtom word v := by
  -- The first character of each name is none of those that are set apart.
  refine ⟨?_, fun rest _ => scanAtom_constant h rest⟩
  simp only [constants, List.mem_cons, List.not_mem_nil, or_false, Prod.mk.injEq] at h
  rcases h with ⟨rfl, -⟩ | ⟨rfl, -⟩ | ⟨rfl, -⟩ | ⟨rfl, -⟩ | ⟨rfl, -⟩ | ⟨rfl, -⟩ <;>
    exact ⟨_, _, rfl, ⟨by decide, by decide, by decide, by decide, by decide⟩⟩

/-- So is a number. -/
theorem isAtom_number {s : List Char} {v : Json} (h : scanNumber s = some (v, [])) :
    IsAtom s v := by
  obtain ⟨c, t, hs, hbegins, -⟩ := beginsAtom_of_scanNumber h
  exact ⟨⟨c, t, hs, hbegins⟩, fun rest hrest => scanAtom_number h hrest⟩

/-- And a float is one or the other. -/
theorem isAtom_float {repr : ℚ → List Char} {x : Float}
    (h : ∀ y, x = .finite y → ReadsBack repr y) : IsAtom (floatText repr x) (.float x) := by
  cases x with
  | finite y => exact isAtom_number (h y rfl)
  | nan => exact isAtom_constant (.tail _ (.tail _ (.tail _ (.head _))))
  | infinite negative =>
    cases negative with
    | false => exact isAtom_constant (.tail _ (.tail _ (.tail _ (.tail _ (.head _)))))
    | true => exact isAtom_constant (.tail _ (.tail _ (.tail _ (.tail _ (.tail _ (.head _))))))

/-- Such a value comes back. -/
theorem IsAtom.scanValue {s rest : List Char} {v : Json} {fuel : ℕ} (h : IsAtom s v)
    (hfuel : s.length ≤ fuel) (hrest : Stops rest) : scanValue fuel (s ++ rest) = some (v, rest) := by
  obtain ⟨⟨c, t, rfl, hc⟩, hscan⟩ := h
  cases fuel with
  | zero => cases hfuel
  | succ fuel =>
    -- The first character rules the other kinds of value out.
    rw [List.cons_append, Json.scanValue, if_neg hc.quote, if_neg hc.bracket, if_neg hc.brace,
      ← List.cons_append]
    exact hscan rest hrest

/-! ### Values -/

/-- How a value is written begins neither with white space nor like the end of an array. -/
def BeginsValue (s : List Char) : Prop := ∃ c t, s = c :: t ∧ isSpace c = false ∧ c ≠ ']'

mutual

/-- The finite floats in a value. -/
def finites : Json → List ℚ
  | .float (.finite x) => [x]
  | .array items => finitesItems items
  | .object members => finitesMembers members
  | _ => []

def finitesItems : List Json → List ℚ
  | [] => []
  | v :: items => finites v ++ finitesItems items

def finitesMembers : List (String × Json) → List ℚ
  | [] => []
  | (_, v) :: members => finites v ++ finitesMembers members

end

/-- The floats of some items are those of each. -/
theorem mem_finitesItems {items : List Json} {x : ℚ} :
    x ∈ finitesItems items ↔ ∃ v ∈ items, x ∈ v.finites := by
  induction items with
  | nil => simp [finitesItems]
  | cons v items ih => simp [finitesItems, ih]

/-- So are the floats of some members. -/
theorem mem_finitesMembers {members : List (String × Json)} {x : ℚ} :
    x ∈ finitesMembers members ↔ ∃ m ∈ members, x ∈ m.2.finites := by
  induction members with
  | nil => simp [finitesMembers]
  | cons m members ih => simp [finitesMembers, ih]

section RoundTrip

variable {layout : Layout} {repr : ℚ → List Char}

/-- A value that is written begins a value. -/
theorem beginsValue_dumpsAt {v : Json} (h : ∀ x ∈ v.finites, ReadsBack repr x) (depth : ℕ) :
    BeginsValue (dumpsAt layout repr depth v) := by
  -- What is an atom begins with a character that begins one.
  have hatom : ∀ {s : List Char} {v : Json}, IsAtom s v → BeginsValue s := by
    rintro s v ⟨⟨c, t, rfl, hc⟩, -⟩
    exact ⟨c, t, rfl, hc.space, hc.closing⟩
  cases v with
  | null => exact ⟨'n', _, rfl, by decide, by decide⟩
  | bool b => cases b <;> exact ⟨_, _, rfl, by decide, by decide⟩
  | int n => exact hatom (isAtom_number (scanNumber_intText n))
  | float x =>
    refine hatom (isAtom_float fun y hy => h y ?_)
    rw [hy]
    exact List.mem_cons_self
  | string text => exact ⟨'"', _, rfl, by decide, by decide⟩
  | array items => cases items <;> exact ⟨'[', _, rfl, by decide, by decide⟩
  | object members =>
    cases members with
    | nil => exact ⟨'\x7b', _, rfl, by decide, by decide⟩
    | cons m members => exact ⟨'\x7b', _, rfl, by decide, by decide⟩

/-- The value comes back, read to a depth its text allows. -/
def ComesBack (layout : Layout) (repr : ℚ → List Char) (v : Json) : Prop :=
  ∀ depth fuel rest, (dumpsAt layout repr depth v).length ≤ fuel → Stops rest →
    scanValue fuel (dumpsAt layout repr depth v ++ rest) = some (v, rest)

/-- **Items come back**, one after the other. The induction is on the items after the first
one. -/
theorem scanItems_dumpsItems {v : Json} {items : List Json} {depth fuel : ℕ} (rest : List Char)
    (hitems : ∀ v' ∈ v :: items, ComesBack layout repr v' ∧
      ∀ depth, BeginsValue (dumpsAt layout repr depth v'))
    (hfuel : (dumpsAt layout repr (depth + 1) v ++ dumpsItems layout repr depth items).length <
      fuel) :
    scanItems fuel (dumpsAt layout repr (depth + 1) v ++ (dumpsItems layout repr depth items ++
      (layout.outer depth ++ ']' :: rest))) = some (v :: items, rest) := by
  induction items generalizing v fuel with
  -- one item: it is followed by the closing bracket
  | nil =>
    obtain ⟨⟨hv, -⟩, -⟩ := List.forall_mem_cons.mp hitems
    cases fuel with
    | zero => cases hfuel
    | succ fuel =>
      rw [dumpsItems, List.append_nil, Nat.lt_succ_iff] at hfuel
      -- White space and the bracket end the value.
      have hstops : Stops (layout.outer depth ++ ']' :: rest) :=
        stops_append (layout.isSpace_outer depth) (stops_cons rfl)
      rw [scanItems, dumpsItems, List.nil_append, hv _ _ _ hfuel hstops]
      simp only [skip_append (layout.isSpace_outer depth), skip_cons (c := ']') rfl]
  -- more than one: it is followed by a comma
  | cons v' items ih =>
    obtain ⟨⟨hv, -⟩, hrest⟩ := List.forall_mem_cons.mp hitems
    obtain ⟨c, t, hbegins, hspace, -⟩ := (hrest v' List.mem_cons_self).2 (depth + 1)
    cases fuel with
    | zero => cases hfuel
    | succ fuel =>
      rw [dumpsItems, List.length_append, List.length_cons, List.append_assoc,
        List.length_append] at hfuel
      -- The comma ends the value.
      have hstops : Stops (dumpsItems layout repr depth (v' :: items) ++
          (layout.outer depth ++ ']' :: rest)) := stops_cons rfl
      rw [scanItems, hv _ _ _ (by omega) hstops]
      -- The white space after the comma is skipped, and the next item begins.
      have hskip : skip (layout.between depth ++ (dumpsAt layout repr (depth + 1) v' ++
          (dumpsItems layout repr depth items ++ (layout.outer depth ++ ']' :: rest)))) =
          dumpsAt layout repr (depth + 1) v' ++ (dumpsItems layout repr depth items ++
            (layout.outer depth ++ ']' :: rest)) := by
        rw [skip_append (layout.isSpace_between depth), hbegins, List.cons_append, skip_cons hspace]
      simp only [dumpsItems, List.cons_append, List.append_assoc, skip_cons (c := ',') rfl, hskip]
      rw [ih hrest (by omega)]
      rfl

/-- The space before the value of a member. -/
theorem skip_cons_dumpsAt {s t : List Char} (h : BeginsValue s) :
    skip (' ' :: (s ++ t)) = s ++ t := by
  obtain ⟨c, s, rfl, hspace, -⟩ := h
  have hfirst : skip (' ' :: (c :: s ++ t)) = skip (c :: s ++ t) := List.dropWhile_cons_of_pos rfl
  rw [hfirst, List.cons_append, skip_cons hspace]

/-- The key of a member comes back. -/
theorem scanMembers_stringText (fuel : ℕ) (key : String) (s : List Char) :
    scanMembers (fuel + 1) (stringText key ++ ':' :: s) =
      match scanValue fuel (skip s) with
      | none => none
      | some (v, s) =>
        match skip s with
        | '\x7d' :: s => some ([(key, v)], s)
        | ',' :: s => (scanMembers fuel (skip s)).map fun p => ((key, v) :: p.1, p.2)
        | _ => none := by
  -- The text is a quoted one with a colon after it.
  have htext : stringText key ++ ':' :: s =
      '"' :: (key.toList.flatMap escapeChar ++ '"' :: (':' :: s)) := by
    simp [stringText]
  rw [htext, scanMembers, scanString_stringText]
  simp only [skip_cons (c := ':') rfl, String.ofList_toList]

/-- **Members come back**, one after the other. -/
theorem scanMembers_dumpsMembers {key : String} {v : Json} {members : List (String × Json)}
    {depth fuel : ℕ} (rest : List Char)
    (hmembers : ∀ m ∈ (key, v) :: members, ComesBack layout repr m.2 ∧
      ∀ depth, BeginsValue (dumpsAt layout repr depth m.2))
    (hfuel : (dumpsAt layout repr (depth + 1) v ++ dumpsMembers layout repr depth members).length <
      fuel) :
    scanMembers fuel (stringText key ++ ':' :: ' ' :: (dumpsAt layout repr (depth + 1) v ++
      (dumpsMembers layout repr depth members ++ (layout.outer depth ++ '\x7d' :: rest)))) =
      some ((key, v) :: members, rest) := by
  induction members generalizing key v fuel with
  -- one member
  | nil =>
    obtain ⟨⟨hv, hbegins⟩, -⟩ := List.forall_mem_cons.mp hmembers
    cases fuel with
    | zero => cases hfuel
    | succ fuel =>
      rw [dumpsMembers, List.append_nil, Nat.lt_succ_iff] at hfuel
      have hstops : Stops (layout.outer depth ++ '\x7d' :: rest) :=
        stops_append (layout.isSpace_outer depth) (stops_cons rfl)
      rw [scanMembers_stringText, skip_cons_dumpsAt (hbegins _), dumpsMembers, List.nil_append,
        hv _ _ _ hfuel hstops]
      simp only [skip_append (layout.isSpace_outer depth), skip_cons (c := '\x7d') rfl]
  -- more than one member
  | cons m members ih =>
    obtain ⟨⟨hv, hbegins⟩, hrest⟩ := List.forall_mem_cons.mp hmembers
    obtain ⟨key', v'⟩ := m
    cases fuel with
    | zero => cases hfuel
    | succ fuel =>
      rw [dumpsMembers] at hfuel
      simp only [List.length_append, List.length_cons] at hfuel
      have hv : ComesBack layout repr v := hv
      have hlt : (dumpsAt layout repr (depth + 1) v' ++
          dumpsMembers layout repr depth members).length < fuel := by
        rw [List.length_append]
        omega
      have hstops : Stops (dumpsMembers layout repr depth ((key', v') :: members) ++
          (layout.outer depth ++ '\x7d' :: rest)) := stops_cons rfl
      rw [scanMembers_stringText, skip_cons_dumpsAt (hbegins _), hv _ _ _ (by omega) hstops]
      -- The white space before the next key is skipped, and no more.
      have hskip : ∀ s, skip (layout.between depth ++ (stringText key' ++ s)) =
          stringText key' ++ s := fun s => by
        rw [skip_append (layout.isSpace_between depth)]
        exact skip_cons rfl
      simp only [dumpsMembers, List.cons_append, List.append_assoc, skip_cons (c := ',') rfl, hskip]
      rw [ih hrest hlt]
      rfl

/-- An atom comes back. -/
theorem comesBack_of_isAtom {v : Json} (h : ∀ depth, IsAtom (dumpsAt layout repr depth v) v) :
    ComesBack layout repr v := fun depth _ _ hfuel hrest => (h depth).scanValue hfuel hrest

/-- **Every value comes back.** -/
theorem comesBack {v : Json} (h : ∀ x ∈ v.finites, ReadsBack repr x) :
    ComesBack layout repr v := by
  induction v using induction with
  | null => exact comesBack_of_isAtom fun _ => isAtom_constant (.head _)
  | bool b =>
    cases b with
    | true => exact comesBack_of_isAtom fun _ => isAtom_constant (.tail _ (.head _))
    | false => exact comesBack_of_isAtom fun _ => isAtom_constant (.tail _ (.tail _ (.head _)))
  | int n => exact comesBack_of_isAtom fun _ => isAtom_number (scanNumber_intText n)
  | float x =>
    refine comesBack_of_isAtom fun _ => isAtom_float fun y hy => h y ?_
    rw [hy]
    exact List.mem_cons_self
  | string text =>
    intro depth fuel rest hfuel hrest
    cases fuel with
    | zero => cases hfuel
    | succ fuel =>
      -- A string ends with its own quote, so it does not matter what follows.
      have htext : dumpsAt layout repr depth (.string text) ++ rest =
          '"' :: (text.toList.flatMap escapeChar ++ '"' :: rest) := by
        simp [dumpsAt, stringText]
      rw [htext, scanValue, if_pos rfl, scanString_stringText, Option.map_some,
        String.ofList_toList]
  | array items ih =>
    -- Each item comes back and begins a value.
    have hitems : ∀ v ∈ items, ComesBack layout repr v ∧
        ∀ depth, BeginsValue (dumpsAt layout repr depth v) := fun v hv =>
      have hfloats := fun x hx => h x (mem_finitesItems.mpr ⟨v, hv, hx⟩)
      ⟨ih v hv hfloats, beginsValue_dumpsAt hfloats⟩
    intro depth fuel rest hfuel hrest
    cases fuel with
    | zero => cases items <;> cases hfuel
    | succ fuel =>
      cases items with
      | nil => rfl
      | cons v items =>
        obtain ⟨c, t, hbegins, hspace, hclosing⟩ := (hitems v List.mem_cons_self).2 (depth + 1)
        simp only [dumpsAt, List.length_append, List.length_cons, List.length_nil] at hfuel
        -- An item is shorter than the array, so the depth is enough for it.
        have hlt : (dumpsAt layout repr (depth + 1) v ++
            dumpsItems layout repr depth items).length < fuel := by
          rw [List.length_append]
          omega
        have hscan := scanItems_dumpsItems rest hitems hlt
        rw [hbegins, List.cons_append] at hscan
        simp only [dumpsAt, List.cons_append, List.append_assoc, List.nil_append, hbegins]
        rw [scanValue, if_neg (by decide), if_pos rfl, skip_append (layout.isSpace_inner depth),
          skip_cons hspace]
        -- an item comes first, and not the end of the array
        split
        · next heq => exact absurd (List.cons.inj heq).1 hclosing
        · rw [hscan]
          rfl
  | object members ih =>
    -- The same for each member.
    have hmembers : ∀ m ∈ members, ComesBack layout repr m.2 ∧
        ∀ depth, BeginsValue (dumpsAt layout repr depth m.2) := fun m hm =>
      have hfloats := fun x hx => h x (mem_finitesMembers.mpr ⟨m, hm, hx⟩)
      ⟨ih m hm hfloats, beginsValue_dumpsAt hfloats⟩
    intro depth fuel rest hfuel hrest
    cases members with
    | nil =>
      cases fuel with
      | zero => cases hfuel
      | succ fuel => rfl
    | cons m members =>
      obtain ⟨key, v⟩ := m
      cases fuel with
      | zero => cases hfuel
      | succ fuel =>
        simp only [dumpsAt, List.length_append, List.length_cons, List.length_nil] at hfuel
        -- And a member is shorter than the object.
        have hlt : (dumpsAt layout repr (depth + 1) v ++
            dumpsMembers layout repr depth members).length < fuel := by
          rw [List.length_append]
          omega
        have hscan := scanMembers_dumpsMembers rest hmembers hlt
        simp only [dumpsAt, List.cons_append, List.append_assoc, List.nil_append]
        rw [scanValue, if_neg (by decide), if_neg (by decide), if_pos rfl,
          skip_append (layout.isSpace_inner depth)]
        have hskip : ∀ s, skip (stringText key ++ s) = stringText key ++ s := fun s => skip_cons rfl
        rw [hskip]
        -- a key comes first, and not the end of the object
        split
        · next heq => cases (List.cons.inj heq).1
        · rw [hscan]
          rfl

/-- **`json.loads` reads what `json.dumps` writes**, in any layout. -/
theorem loads_dumps (layout : Layout) {repr : ℚ → List Char} {v : Json}
    (h : ∀ x ∈ v.finites, ReadsBack repr x) : loads (dumps layout repr v) = some v := by
  have hvalue : BeginsValue (dumpsAt layout repr 0 v) := beginsValue_dumpsAt h 0
  obtain ⟨c, t, hbegins, hspace, -⟩ := hvalue
  -- Nothing is skipped at the front, and nothing is left at the end.
  have hskip : skip (dumpsAt layout repr 0 v) = dumpsAt layout repr 0 v := by
    rw [hbegins, skip_cons hspace]
  have hback : ComesBack layout repr v := comesBack h
  have hscan := hback 0 _ [] (le_refl _) stops_nil
  rw [List.append_nil] at hscan
  rw [loads, dumps, String.toList_ofList, String.length_ofList, hskip, hscan]
  exact if_pos rfl

end RoundTrip

end Json

end Python
