import Mathlib.Init
import Mathlib.Data.List.Basic

/-!
# CSV

`csv.writer` and `csv.reader` with their default dialect. A field is quoted only if it has to
be, and the reader is the automaton of the library, line by line, without its limit on the size
of a field. Whatever the fields hold, delimiters, quotes and line breaks included, the reader
gives back the records that were written (`read_write`).
-/

namespace Python

namespace Csv

/-! ### Writing -/

/-- The characters for which a field is quoted. -/
def isSpecial (c : Char) : Bool := c = ',' || c = '"' || c = '\r' || c = '\n'

/-- Inside quotes a quote is doubled. -/
def doubled (c : Char) : List Char := if c = '"' then ['"', '"'] else [c]

def quoted (text : List Char) : List Char := '"' :: (text.flatMap doubled ++ ['"'])

def fieldText (text : List Char) : List Char := if text.any isSpecial then quoted text else text

/-- The fields of a record with commas between them. A single empty field is quoted, so that
the line is not taken for an empty record. -/
def recordText : List (List Char) → List Char
  | [] => []
  | [[]] => ['"', '"']
  | field :: fields => fieldText field ++ fields.flatMap fun text => ',' :: fieldText text

/-- `writer.writerows` -/
def write (records : List (List (List Char))) : List Char :=
  records.flatMap fun record => recordText record ++ ['\r', '\n']

/-! ### Reading -/

inductive State where
  | startRecord | startField | inField | inQuotedField | quoteInQuotedField | eatCrnl
  deriving DecidableEq, Repr

/-- The reader, with the field and the fields it has so far. -/
structure Reader where
  state : State
  field : List Char
  fields : List (List Char)
  deriving DecidableEq, Repr

namespace Reader

/-- At the start of a record. -/
def initial : Reader := ⟨.startRecord, [], []⟩

def add (r : Reader) (state : State) (c : Char) : Reader := ⟨state, r.field ++ [c], r.fields⟩

def save (r : Reader) (state : State) : Reader := ⟨state, [], r.fields ++ [r.field]⟩

/-- A character at the start of a field. -/
def startField (r : Reader) (c : Char) : Reader :=
  if c = '\n' ∨ c = '\r' then r.save .eatCrnl
  else if c = '"' then { r with state := .inQuotedField }
  else if c = ',' then r.save .startField
  else r.add .inField c

/-- `parse_process_char`; a character after the end of a line is an error. -/
def feed (r : Reader) (c : Char) : Option Reader :=
  match r.state with
  | .startRecord =>
    if c = '\n' ∨ c = '\r' then some { r with state := .eatCrnl } else some (r.startField c)
  | .startField => some (r.startField c)
  | .inField =>
    if c = '\n' ∨ c = '\r' then some (r.save .eatCrnl)
    else if c = ',' then some (r.save .startField)
    else some (r.add .inField c)
  | .inQuotedField =>
    if c = '"' then some { r with state := .quoteInQuotedField } else some (r.add .inQuotedField c)
  | .quoteInQuotedField =>
    if c = '"' then some (r.add .inQuotedField c)
    else if c = ',' then some (r.save .startField)
    else if c = '\n' ∨ c = '\r' then some (r.save .eatCrnl)
    else some (r.add .inField c)
  | .eatCrnl => if c = '\n' ∨ c = '\r' then some r else none

/-- The end of a line. -/
def endLine (r : Reader) : Reader :=
  match r.state with
  | .startRecord => r
  | .startField => r.save .startRecord
  | .inField => r.save .startRecord
  | .inQuotedField => r
  | .quoteInQuotedField => r.save .startRecord
  | .eatCrnl => { r with state := .startRecord }

end Reader

/-- What is read from a reader on: a record ends with the line that brings the reader back to
the start of one. Text that stops inside quotes ends the last record. -/
def readFrom (r : Reader) : List Char → Option (List (List (List Char)))
  | [] =>
    if r = .initial then some []
    else if r.endLine.state = .inQuotedField then some [r.fields ++ [r.field]]
    else some [r.endLine.fields]
  | c :: s =>
    match r.feed c with
    | none => none
    | some r =>
      if c = '\n' then
        if r.endLine.state = .startRecord then
          (readFrom .initial s).map fun records => r.endLine.fields :: records
        else readFrom r.endLine s
      else readFrom r s

/-- `list(csv.reader(io.StringIO(text)))` -/
def read (text : List Char) : Option (List (List (List Char))) := readFrom .initial text

/-! ### Reading a field -/

section Fields

variable {r r' : Reader} {c : Char} {s text : List Char} {fields : List (List Char)}

/-- A character that ends no line. -/
theorem readFrom_cons (h : r.feed c = some r') (hc : c ≠ '\n') :
    readFrom r (c :: s) = readFrom r' s := by
  rw [readFrom, h]
  exact if_neg hc

/-- Inside quotes any character is one of the field. -/
theorem readFrom_quoted_cons (hc : c ≠ '"') (acc : List Char) :
    readFrom ⟨.inQuotedField, acc, fields⟩ (c :: s) =
      readFrom ⟨.inQuotedField, acc ++ [c], fields⟩ s := by
  have hfeed : Reader.feed ⟨.inQuotedField, acc, fields⟩ c =
      some ⟨.inQuotedField, acc ++ [c], fields⟩ := if_neg hc
  by_cases hline : c = '\n'
  · rw [readFrom, hfeed]
    exact (if_pos hline).trans (if_neg (by simp [Reader.endLine]))
  · exact readFrom_cons hfeed hline

/-- A doubled quote is a quote. -/
theorem readFrom_doubled (c : Char) (acc : List Char) :
    readFrom ⟨.inQuotedField, acc, fields⟩ (doubled c ++ s) =
      readFrom ⟨.inQuotedField, acc ++ [c], fields⟩ s := by
  unfold doubled
  split_ifs with hquote
  · subst hquote
    have hfirst : Reader.feed ⟨.inQuotedField, acc, fields⟩ '"' =
        some ⟨.quoteInQuotedField, acc, fields⟩ := rfl
    have hsecond : Reader.feed ⟨.quoteInQuotedField, acc, fields⟩ '"' =
        some ⟨.inQuotedField, acc ++ ['"'], fields⟩ := rfl
    exact (readFrom_cons hfirst (by decide)).trans (readFrom_cons hsecond (by decide))
  · exact readFrom_quoted_cons hquote acc

theorem readFrom_flatMap_doubled (text acc : List Char) :
    readFrom ⟨.inQuotedField, acc, fields⟩ (text.flatMap doubled ++ s) =
      readFrom ⟨.inQuotedField, acc ++ text, fields⟩ s := by
  induction text generalizing acc with
  | nil => rw [List.flatMap_nil, List.nil_append, List.append_nil]
  | cons c text ih =>
    rw [List.flatMap_cons, List.append_assoc, readFrom_doubled, ih, List.append_assoc,
      List.singleton_append]

theorem isSpecial_eq_false : isSpecial c = false ↔ c ≠ ',' ∧ c ≠ '"' ∧ c ≠ '\r' ∧ c ≠ '\n' := by
  simp [isSpecial, and_assoc]

theorem readFrom_plain (h : ∀ c ∈ text, isSpecial c = false) (acc : List Char) :
    readFrom ⟨.inField, acc, fields⟩ (text ++ s) =
      readFrom ⟨.inField, acc ++ text, fields⟩ s := by
  induction text generalizing acc with
  | nil => rw [List.nil_append, List.append_nil]
  | cons c text ih =>
    obtain ⟨hc, htext⟩ := List.forall_mem_cons.mp h
    obtain ⟨hcomma, -, hreturn, hline⟩ := isSpecial_eq_false.mp hc
    have hfeed : Reader.feed ⟨.inField, acc, fields⟩ c = some ⟨.inField, acc ++ [c], fields⟩ := by
      simp [Reader.feed, Reader.add, hline, hreturn, hcomma]
    rw [List.cons_append, readFrom_cons hfeed hline, ih htext, List.append_assoc,
      List.singleton_append]

/-- The reader has read the field, quoted or not, and waits for what ends it. -/
inductive Holds (fields : List (List Char)) : List Char → Reader → Prop
  | empty : Holds fields [] ⟨.startField, [], fields⟩
  | plain (text : List Char) : Holds fields text ⟨.inField, text, fields⟩
  | quoted (text : List Char) : Holds fields text ⟨.quoteInQuotedField, text, fields⟩

/-- A comma ends it. -/
theorem Holds.comma (h : Holds fields text r) :
    readFrom r (',' :: s) = readFrom ⟨.startField, [], fields ++ [text]⟩ s := by
  cases h <;> exact readFrom_cons rfl (by decide)

/-- The end of the line ends the record. -/
theorem Holds.crlf (h : Holds fields text r) : readFrom r ('\r' :: '\n' :: s) =
    (readFrom .initial s).map fun records => (fields ++ [text]) :: records := by
  have hline : readFrom ⟨.eatCrnl, [], fields ++ [text]⟩ ('\n' :: s) =
      (readFrom .initial s).map fun records => (fields ++ [text]) :: records := rfl
  cases h <;> exact (readFrom_cons rfl (by decide)).trans hline

/-- **A field comes back.** -/
theorem readFrom_fieldText (text : List Char) (fields : List (List Char)) :
    ∃ r, Holds fields text r ∧ ∀ s, readFrom ⟨.startField, [], fields⟩ (fieldText text ++ s) =
      readFrom r s := by
  unfold fieldText
  split_ifs with hspecial
  · refine ⟨_, .quoted text, fun s => ?_⟩
    have hopen : Reader.feed ⟨.startField, [], fields⟩ '"' = some ⟨.inQuotedField, [], fields⟩ := rfl
    have hclose : Reader.feed ⟨.inQuotedField, text, fields⟩ '"' =
        some ⟨.quoteInQuotedField, text, fields⟩ := rfl
    rw [quoted, List.cons_append, List.append_assoc, readFrom_cons hopen (by decide),
      readFrom_flatMap_doubled, List.nil_append]
    exact readFrom_cons hclose (by decide)
  · have hplain : ∀ c ∈ text, isSpecial c = false := by simpa using hspecial
    cases text with
    | nil => exact ⟨_, .empty, fun s => rfl⟩
    | cons c text =>
      obtain ⟨hc, htext⟩ := List.forall_mem_cons.mp hplain
      obtain ⟨hcomma, hquote, hreturn, hline⟩ := isSpecial_eq_false.mp hc
      have hfeed : Reader.feed ⟨.startField, [], fields⟩ c = some ⟨.inField, [c], fields⟩ := by
        simp [Reader.feed, Reader.startField, Reader.add, hline, hreturn, hcomma, hquote]
      refine ⟨_, .plain (c :: text), fun s => ?_⟩
      rw [List.cons_append, readFrom_cons hfeed hline, readFrom_plain htext, List.singleton_append]

/-! ### Reading a record -/

/-- The fields after the first one come back, with the end of the line. -/
theorem readFrom_flatMap_fieldText (more : List (List Char)) (h : Holds fields text r) :
    readFrom r (more.flatMap (fun text => ',' :: fieldText text) ++ '\r' :: '\n' :: s) =
      (readFrom .initial s).map fun records => (fields ++ text :: more) :: records := by
  induction more generalizing fields text r with
  | nil => exact h.crlf
  | cons text' more ih =>
    obtain ⟨r', hr', hread⟩ := readFrom_fieldText text' (fields ++ [text])
    rw [List.flatMap_cons, List.append_assoc, List.cons_append, h.comma, hread, ih hr',
      List.append_assoc, List.singleton_append]

/-- A record starts like a field, unless it starts with the end of a line. -/
theorem readFrom_initial (hline : c ≠ '\n') (hreturn : c ≠ '\r') :
    readFrom .initial (c :: s) = readFrom ⟨.startField, [], []⟩ (c :: s) := by
  have hfeed : Reader.feed .initial c = Reader.feed ⟨.startField, [], []⟩ c := by
    simp [Reader.feed, Reader.initial, hline, hreturn, Reader.startField, Reader.save, Reader.add]
  rw [readFrom, readFrom, hfeed]

/-- The text of a record with fields does not start with the end of a line. -/
theorem exists_recordText {field : List Char} {more : List (List Char)}
    (h : ¬ (field = [] ∧ more = [])) :
    ∃ c t, recordText (field :: more) = c :: t ∧ c ≠ '\n' ∧ c ≠ '\r' ∧ recordText (field :: more) =
      fieldText field ++ more.flatMap fun text => ',' :: fieldText text := by
  have htext : recordText (field :: more) =
      fieldText field ++ more.flatMap fun text => ',' :: fieldText text := by
    cases field with
    | nil =>
      cases more with
      | nil => exact absurd ⟨rfl, rfl⟩ h
      | cons text more => rfl
    | cons c field => rfl
  rw [htext]
  cases field with
  | nil =>
    cases more with
    | nil => exact absurd ⟨rfl, rfl⟩ h
    | cons text more => exact ⟨',', _, rfl, by decide, by decide, rfl⟩
  | cons c field =>
    rw [fieldText]
    split_ifs with hspecial
    · exact ⟨'"', _, rfl, by decide, by decide, rfl⟩
    · have hc : isSpecial c = false := by
        simp only [List.any_cons, Bool.or_eq_true, not_or, Bool.not_eq_true] at hspecial
        exact hspecial.1
      obtain ⟨-, -, hreturn, hline⟩ := isSpecial_eq_false.mp hc
      exact ⟨c, _, rfl, hline, hreturn, rfl⟩

/-- **A record comes back.** -/
theorem readFrom_recordText (record : List (List Char)) (s : List Char) :
    readFrom .initial (recordText record ++ '\r' :: '\n' :: s) =
      (readFrom .initial s).map fun records => record :: records := by
  cases record with
  | nil => rfl
  | cons field more =>
    by_cases hempty : field = [] ∧ more = []
    · obtain ⟨rfl, rfl⟩ := hempty
      rfl
    · obtain ⟨c, t, hhead, hline, hreturn, htext⟩ := exists_recordText hempty
      obtain ⟨r, hr, hread⟩ := readFrom_fieldText field []
      have hfield := readFrom_flatMap_fieldText (s := s) more hr
      rw [hhead, List.cons_append, readFrom_initial hline hreturn, ← List.cons_append, ← hhead,
        htext, List.append_assoc, hread, hfield, List.nil_append]

end Fields

/-- **`csv.reader` reads what `csv.writer` writes.** -/
theorem read_write (records : List (List (List Char))) : read (write records) = some records := by
  induction records with
  | nil => rfl
  | cons record records ih =>
    have htext : write (record :: records) = recordText record ++ '\r' :: '\n' :: write records := by
      rw [write, List.flatMap_cons, List.append_assoc]
      rfl
    rw [read, htext, readFrom_recordText]
    exact congrArg (Option.map fun records => record :: records) ih

end Csv

end Python
