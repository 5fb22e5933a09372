import Mathlib.Algebra.Order.Floor.Defs
import Mathlib.Data.Rat.Floor

/-!
# Decoded JSON

The values `json.loads` returns, with what Python programs do to them: the truth value,
`value.get(key, default)`, `value[key]`, `value[0]`, and reading a number as a time. None
of these looks at the type first, so each may raise.

A float is known by its exact value. Of the repeated keys of an object the last one
counts.
-/

namespace Python

/-- A binary64 number, by its value. -/
inductive Float where
  | finite (value : ℚ)
  | infinite (negative : Bool)
  | nan

/-- A decoded value. -/
inductive Json where
  | null
  | bool (value : Bool)
  | int (value : ℤ)
  | float (value : Float)
  | string (value : String)
  | array (items : List Json)
  | object (members : List (String × Json))

/-- What the operations below raise. -/
inductive Raises where
  | keyError
  | indexError
  | typeError
  | attributeError
  | valueError
  | recursionError
  /-- By how far a time is out of range, `ValueError`, `OverflowError` or `OSError`. -/
  | outOfRange
  deriving DecidableEq, Repr

/-- The name of the class of an exception. -/
def Raises.name : Raises → String
  | .keyError => "KeyError"
  | .indexError => "IndexError"
  | .typeError => "TypeError"
  | .attributeError => "AttributeError"
  | .valueError => "ValueError"
  | .recursionError => "RecursionError"
  | .outOfRange => "ValueError, OverflowError or OSError"

namespace Json

/-- The truth value. -/
def truth : Json → Bool
  | .null => false
  | .bool value => value
  | .int value => value ≠ 0
  | .float (.finite value) => value ≠ 0
  | .float _ => true
  | .string value => value ≠ ""
  | .array items => !items.isEmpty
  | .object members => !members.isEmpty

/-- The value under a key, the last one if there are more. -/
def lookup (members : List (String × Json)) (key : String) : Option Json :=
  (members.reverse.find? fun member => member.1 = key).map Prod.snd

/-- `value.get(key, default)`. -/
def get (value : Json) (key : String) (default : Json) : Except Raises Json :=
  match value with
  | .object members => .ok ((lookup members key).getD default)
  | _ => .error .attributeError

/-- `value[key]`, with a string as key. -/
def item (value : Json) (key : String) : Except Raises Json :=
  match value with
  | .object members =>
    match lookup members key with
    | some value => .ok value
    | none => .error .keyError
  | _ => .error .typeError

/-- `value[0]`. The keys of an object are strings. -/
def first : Json → Except Raises Json
  | .array (value :: _) => .ok value
  | .array [] => .error .indexError
  | .string value =>
    match value.toList with
    | c :: _ => .ok (.string (String.ofList [c]))
    | [] => .error .indexError
  | .object _ => .error .keyError
  | _ => .error .typeError

/-- `value in texts`, for a set of strings: the value is hashed, which an array or an object
cannot be. -/
def isAmong (value : Json) (texts : List String) : Except Raises Bool :=
  match value with
  | .string text => .ok (texts.contains text)
  | .array _ | .object _ => .error .typeError
  | _ => .ok false

/-- `value >= bound`, for an integer bound. -/
def atLeast (value : Json) (bound : ℤ) : Except Raises Bool :=
  match value with
  | .bool value => .ok ((if value then 1 else 0) ≥ bound)
  | .int value => .ok (value ≥ bound)
  | .float (.finite value) => .ok (value ≥ bound)
  | .float (.infinite negative) => .ok (!negative)
  | .float .nan => .ok false
  | _ => .error .typeError

/-- The string a value is, where only strings are taken. -/
def text : Json → Except Raises String
  | .string text => .ok text
  | _ => .error .typeError

end Json

/-! ### Times -/

/-- The nearest integer, the even one of two. -/
def roundHalfEven (x : ℚ) : ℤ :=
  let below := ⌊x⌋
  if x - below < 1 / 2 then below
  else if 1 / 2 < x - below then below + 1
  else if below % 2 = 0 then below
  else below + 1

/-- The years 1 to 9999, in microseconds since 1970. -/
def inRange (microseconds : ℤ) : Bool :=
  -62_135_596_800_000_000 ≤ microseconds ∧ microseconds < 253_402_300_800_000_000

/-- A time, if it is in range. -/
def ofMicroseconds (microseconds : ℤ) : Except Raises ℤ :=
  if inRange microseconds then .ok microseconds else .error .outOfRange

/-- `datetime.fromtimestamp(value, tz=UTC)`, in microseconds since 1970. The exact product is
rounded, not the binary64 one: the two may differ by a microsecond near a tie. -/
def fromTimestamp : Json → Except Raises ℤ
  | .bool value => .ok (if value then 1_000_000 else 0)
  | .int value => ofMicroseconds (value * 1_000_000)
  | .float (.finite value) => ofMicroseconds (roundHalfEven (value * 1_000_000))
  | .float (.infinite _) => .error .outOfRange
  | .float .nan => .error .valueError
  | _ => .error .typeError

/-! ### When nothing is raised -/

/-- The computation returns a value. -/
def Returns {α : Type} (x : Except Raises α) : Prop := ∃ a, x = .ok a

namespace Returns

variable {α β : Type} {x : Except Raises α}

theorem ok {a : α} : Returns (.ok a : Except Raises α) := ⟨a, rfl⟩

theorem bind_iff {f : α → Except Raises β} :
    Returns (x >>= f) ↔ ∃ a, x = .ok a ∧ Returns (f a) := by
  cases x with
  | ok a => exact ⟨fun h => ⟨a, rfl, h⟩, fun ⟨_, ha, h⟩ => Except.ok.inj ha ▸ h⟩
  | error e => exact iff_of_false nofun nofun

theorem map_iff {f : α → β} : Returns (f <$> x) ↔ Returns x := by
  cases x with
  | ok a => exact iff_of_true ⟨f a, rfl⟩ ⟨a, rfl⟩
  | error e => exact iff_of_false nofun nofun

/-- The continuation does not decide whether the computation returns. -/
theorem bind_iff_left {f : α → Except Raises β} (hf : ∀ a, x = .ok a → Returns (f a)) :
    Returns (x >>= f) ↔ Returns x := by
  rw [bind_iff]
  exact ⟨fun ⟨a, ha, _⟩ => ⟨a, ha⟩, fun ⟨a, ha⟩ => ⟨a, ha, hf a ha⟩⟩

end Returns

namespace Json

/-- The value is `None`. -/
def isNull : Json → Bool
  | .null => true
  | _ => false

/-- The value is that string. -/
def isText (value : Json) (text : String) : Bool :=
  match value with
  | .string text' => text' = text
  | _ => false

/-- The value can be hashed. -/
def isHashable : Json → Bool
  | .array _ | .object _ => false
  | _ => true

mutual

/-- The value can be written as JSON, which has no infinite numbers and no NaN. -/
def standard : Json → Bool
  | .float (.finite _) => true
  | .float _ => false
  | .array items => standardItems items
  | .object members => standardMembers members
  | _ => true

def standardItems : List Json → Bool
  | [] => true
  | value :: rest => value.standard && standardItems rest

def standardMembers : List (String × Json) → Bool
  | [] => true
  | (_, value) :: rest => value.standard && standardMembers rest

end

/-- The value is an object. -/
def isObject : Json → Bool
  | .object _ => true
  | _ => false

/-- The value is an object with a member of that name. -/
def has (value : Json) (key : String) : Bool :=
  match value with
  | .object members => (lookup members key).isSome
  | _ => false

/-- The member of an object, `null` if there is none. -/
def member (value : Json) (key : String) : Json :=
  match value with
  | .object members => (lookup members key).getD .null
  | _ => .null

/-- The value is a number that stands for a time. -/
def isTime : Json → Bool
  | .bool _ => true
  | .int value => inRange (value * 1_000_000)
  | .float (.finite value) => inRange (roundHalfEven (value * 1_000_000))
  | _ => false

theorem returns_get {key : String} {default : Json} {value : Json} :
    Returns (value.get key default) ↔ value.isObject := by
  cases value with
  | object members => exact iff_of_true ⟨_, rfl⟩ rfl
  | _ => exact iff_of_false nofun nofun

/-- Reading an absent member as `None`, a program reads what `member` returns. -/
theorem get_null {key : String} {value : Json} (h : value.isObject) :
    value.get key .null = .ok (value.member key) := by
  cases value with
  | object members => rfl
  | _ => cases h

theorem returns_isAmong {value : Json} {texts : List String} :
    Returns (value.isAmong texts) ↔ value.isHashable := by
  cases value with
  | array items => exact iff_of_false nofun nofun
  | object members => exact iff_of_false nofun nofun
  | _ => exact iff_of_true ⟨_, rfl⟩ rfl

theorem returns_item {key : String} {value : Json} :
    Returns (value.item key) ↔ value.has key := by
  cases value with
  | object members =>
    rw [item, has]
    cases lookup members key with
    | some member => exact iff_of_true ⟨member, rfl⟩ rfl
    | none => exact iff_of_false nofun nofun
  | _ => exact iff_of_false nofun nofun

/-- The first character of a text is a text. -/
theorem first_string {text : String} {value : Json} (h : (Json.string text).first = .ok value) :
    ∃ c, value = .string c := by
  cases htext : text.toList with
  | nil =>
    simp only [first, htext] at h
    cases h
  | cons c cs =>
    simp only [first, htext] at h
    cases h
    exact ⟨_, rfl⟩

theorem isObject_of_has {key : String} {value : Json} (h : value.has key) : value.isObject := by
  cases value with
  | object members => rfl
  | _ => cases h

end Json

theorem returns_fromTimestamp {value : Json} : Returns (fromTimestamp value) ↔ value.isTime := by
  have hof : ∀ microseconds, Returns (ofMicroseconds microseconds) ↔ inRange microseconds := by
    intro microseconds
    unfold ofMicroseconds
    split
    · next h => exact iff_of_true ⟨microseconds, rfl⟩ h
    · next h => exact iff_of_false nofun h
  rcases value with _ | b | n | (x | _ | _) | _ | _ | _
  case bool => exact iff_of_true ⟨_, rfl⟩ rfl
  case int => exact hof _
  case float.finite => exact hof _
  all_goals exact iff_of_false nofun nofun

end Python
