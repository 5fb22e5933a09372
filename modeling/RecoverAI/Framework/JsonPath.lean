import RecoverAI.Framework.Json

/-!
# Places in a JSON value

A place is a path of keys and indices. What stands at a place is found by following the
path, and nothing stands there when a step does not fit.
-/

namespace Python

namespace Json

/-- One step into a value. -/
inductive Step where
  | key (key : String)
  | index (index : ℕ)
  deriving DecidableEq, Repr

/-- The value one step into another. -/
def child : Json → Step → Option Json
  | .object members, .key key => lookup members key
  | .array items, .index index => items[index]?
  | _, _ => none

/-- The value at a place. -/
def at? (value : Json) : List Step → Option Json
  | [] => some value
  | step :: path => (value.child step).bind fun inner => inner.at? path

/-- What stands at a place apart from what lies below it: a leaf, an array of some length,
or an object. -/
def outline : Json → Json
  | .array items => .array (items.map fun _ => .null)
  | .object _ => .object []
  | leaf => leaf

variable {value : Json} {path path' : List Step} {step : Step} {key : String}
  {members : List (String × Json)}

@[simp] theorem at?_nil : value.at? [] = some value := rfl

theorem at?_cons : value.at? (step :: path) = (value.child step).bind (·.at? path) := rfl

theorem at?_append : value.at? (path ++ path') = (value.at? path).bind (·.at? path') := by
  induction path generalizing value with
  | nil => rfl
  | cons step path ih =>
    rw [List.cons_append, at?_cons, at?_cons]
    cases value.child step with
    | none => rfl
    | some inner => exact ih

theorem lookup_nil : lookup [] key = none := rfl

/-- The members after the first one count before it. -/
theorem lookup_cons {first : String × Json} : lookup (first :: members) key =
    (lookup members key).or (if first.1 = key then some first.2 else none) := by
  unfold lookup
  rw [List.reverse_cons, List.find?_append]
  cases members.reverse.find? fun member => member.1 = key with
  | some member => rfl
  | none =>
    by_cases h : first.1 = key
    · simp [h]
    · simp [h]

end Json

end Python
