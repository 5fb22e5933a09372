import RecoverAI.Framework.JsonPath
import RecoverAI.Models.Rows
import Mathlib.Data.List.Infix

/-!
# The audit export

`app/services/audit_export_service.py`, with `is_redacted_key` of `app/core/logging.py`: each
audit event becomes a row of fixed columns. The column `payload_json` is `json.dumps` of a
value, and stands here for that value.
-/

namespace RecoverAI

open Python

/-! ### Redaction -/

def redactedKeyFragments : List String :=
  ["password", "secret", "token", "api_key", "authorization"]

/-- What `str.lower` makes of a character, as far as ASCII goes: beside the ASCII capitals,
the Kelvin sign and the dotted capital I lower to ASCII letters. -/
def lowerChar (c : Char) : List Char :=
  if c = '\u212A' then ['k']
  else if c = '\u0130' then ['i', '\u0307']
  else [c.toLower]

def lowered (key : String) : List Char := key.toList.flatMap lowerChar

/-- `is_redacted_key` -/
def isRedactedKey (key : String) : Bool :=
  redactedKeyFragments.any fun fragment => fragment.toList <:+: lowered key

mutual

/-- `_redact` -/
def redact : List (String × Json) → List (String × Json)
  | [] => []
  | (key, value) :: rest =>
    if isRedactedKey key then redact rest else (key, redactValue value) :: redact rest

/-- `_redact(value) if isinstance(value, dict) else value` -/
def redactValue : Json → Json
  | .object members => .object (redact members)
  | value => value

end

/-! ### Rows -/

/-- A stored audit event. -/
structure StoredEvent where
  entityType : String
  entityId : Uuid
  eventType : String
  actorType : String
  payload : List (String × Json)
  correlationId : Option String
  createdAt : Time

/-- A row of the export; `timestamp` is written in ISO format. -/
structure ExportRow where
  timestamp : Time
  entityType : String
  entityId : String
  eventType : String
  actorType : String
  correlationId : String
  caseId : String
  paymentId : Json
  fromStatus : Json
  toStatus : Json
  reason : Json
  policyDecision : Json
  policyReasonCodes : String
  policyVersion : Json
  proposedAction : Json
  recommendedAction : Json
  recoveryConfidence : Json
  diagnosisCategory : Json
  aiModel : Json
  aiDecisionSource : Json
  aiLatencyMs : Json
  amount : Json
  currency : Json
  providerReference : Json
  shortUrl : Json
  finalOutcome : Json
  payloadJson : Json

/-- `_first`: the first of the keys that has a value. -/
def firstOf (payload : List (String × Json)) : List String → Json
  | [] => .null
  | key :: keys =>
    match Json.lookup payload key with
    | none | some .null => firstOf payload keys
    | some value => value

/-- `value or ""` -/
def orEmpty (value : Json) : Json := if value.truth then value else .string ""

/-- `_TERMINAL_STATUSES` -/
def exportTerminalStatuses : List String :=
  ["recovered", "stopped", "escalated", "failed", "ineligible"]

/-- The strings a value runs through as an iterable. -/
def iterated : Json → Except Raises (List Json)
  | .array items => .ok items
  | .object members => .ok ((members.map Prod.fst).eraseDups.map .string)
  | .string text => .ok (text.toList.map fun c => .string (String.ofList [c]))
  | _ => .error .typeError

/-- `",".join(value or [])` -/
def joined (value : Json) : Except Raises String :=
  if value.truth then do
    let texts ← (← iterated value).mapM Json.text
    return ",".intercalate texts
  else return ""

/-- `_row_for` -/
def rowFor (event : StoredEvent) : Except Raises ExportRow := do
  let payload := event.payload
  let toStatus := firstOf payload ["to_status"]
  let finalOutcome := if ← toStatus.isAmong exportTerminalStatuses then toStatus else .null
  let policyReasonCodes ← joined ((Json.lookup payload "reason_codes").getD .null)
  return {
    timestamp := event.createdAt
    entityType := event.entityType
    entityId := uuidText event.entityId
    eventType := event.eventType
    actorType := event.actorType
    correlationId := event.correlationId.getD ""
    caseId := if event.entityType = "recovery_case" then uuidText event.entityId else ""
    paymentId := orEmpty (firstOf payload ["payment_id"])
    fromStatus := orEmpty (firstOf payload ["from_status"])
    toStatus := orEmpty toStatus
    reason := orEmpty (firstOf payload ["reason", "decision_explanation", "error"])
    policyDecision := orEmpty (firstOf payload ["decision"])
    policyReasonCodes := policyReasonCodes
    policyVersion := orEmpty (firstOf payload ["policy_version"])
    proposedAction := orEmpty (firstOf payload ["proposed_action"])
    recommendedAction := orEmpty (firstOf payload ["recommended_action"])
    recoveryConfidence := firstOf payload ["recovery_confidence"]
    diagnosisCategory := orEmpty (firstOf payload ["diagnosis_category"])
    aiModel := orEmpty (firstOf payload ["model"])
    aiDecisionSource := orEmpty (firstOf payload ["decision_source"])
    aiLatencyMs := firstOf payload ["latency_ms"]
    amount := firstOf payload ["amount_paid", "amount", "revenue_at_risk"]
    currency := orEmpty (firstOf payload ["currency"])
    providerReference := orEmpty (firstOf payload ["provider_reference"])
    shortUrl := orEmpty (firstOf payload ["short_url"])
    finalOutcome := orEmpty finalOutcome
    payloadJson := .object (redact payload) }

/-- An event has a row when its status can be hashed and its reason codes can be joined. -/
theorem exists_row {event : StoredEvent} {isFinal : Bool} {codes : String}
    (hfinal : (firstOf event.payload ["to_status"]).isAmong exportTerminalStatuses = .ok isFinal)
    (hcodes : joined ((Json.lookup event.payload "reason_codes").getD .null) = .ok codes) :
    ∃ row, rowFor event = .ok row := by
  unfold rowFor
  simp only [hfinal, hcodes, bind, Except.bind, pure, Except.pure]
  exact ⟨_, rfl⟩

/-- Two columns of a row: the payload it is written with, and its outcome. -/
theorem columns_of_rowFor {event : StoredEvent} {row : ExportRow} (h : rowFor event = .ok row) :
    row.payloadJson = redactValue (.object event.payload) ∧
      ∃ isFinal, (firstOf event.payload ["to_status"]).isAmong exportTerminalStatuses =
        .ok isFinal ∧
        row.finalOutcome =
          orEmpty (if isFinal then firstOf event.payload ["to_status"] else .null) := by
  unfold rowFor at h
  cases hfinal : (firstOf event.payload ["to_status"]).isAmong exportTerminalStatuses with
  | error e => simp [hfinal, bind, Except.bind] at h
  | ok isFinal =>
    cases hcodes : joined ((Json.lookup event.payload "reason_codes").getD .null) with
    | error e => simp [hfinal, hcodes, bind, Except.bind] at h
    | ok codes =>
      simp only [hfinal, hcodes, bind, Except.bind, pure, Except.pure, Except.ok.injEq] at h
      subst h
      exact ⟨rfl, isFinal, rfl, rfl⟩

/-! ### What redaction promises -/

/-- A step that goes under a credential-shaped key. -/
def redactedStep : Json.Step → Bool
  | .key key => isRedactedKey key
  | .index _ => false

/-- A place that lies under no credential-shaped key. -/
def Clear (path : List Json.Step) : Prop := ∀ step ∈ path, redactedStep step = false

/-- No object at any depth has a credential-shaped key. -/
def NoRedactedKey (exported : Json) : Prop :=
  ∀ path key, isRedactedKey key → exported.at? (path ++ [.key key]) = none

/-- All that does not lie under a credential-shaped key is still at its place. -/
def KeepsRest (payload exported : Json) : Prop :=
  ∀ path value, Clear path → payload.at? path = some value →
    ∃ value', exported.at? path = some value' ∧ value'.outline = value.outline

/-- Inside the arrays that are not dropped, no object has a credential-shaped key. -/
def ArraysClear (payload : Json) : Prop :=
  ∀ path key, Clear path → (∃ index, .index index ∈ path) → isRedactedKey key →
    payload.at? (path ++ [.key key]) = none

/-! ### Following a place through the redaction -/

/-- The redaction drops what lies at a place: a credential-shaped key is met before any
array is entered. -/
def droppedAt : List Json.Step → Bool
  | [] => false
  | .key key :: path => isRedactedKey key || droppedAt path
  | .index _ :: _ => false

/-- A place inside an array. -/
def InArray (path : List Json.Step) : Prop := ∃ index, Json.Step.index index ∈ path

variable {path path' : List Json.Step} {value : Json} {key : String}

theorem lookup_redact (members : List (String × Json)) (key : String) :
    Json.lookup (redact members) key =
      if isRedactedKey key then none else (Json.lookup members key).map redactValue := by
  induction members with
  | nil => simp [redact, Json.lookup_nil]
  | cons first rest ih =>
    obtain ⟨name, value⟩ := first
    rw [redact, Json.lookup_cons]
    by_cases hname : isRedactedKey name
    · rw [if_pos hname, ih]
      by_cases hkey : isRedactedKey key
      · rw [if_pos hkey, if_pos hkey]
      · have hne : name ≠ key := fun h => hkey (h ▸ hname)
        rw [if_neg hkey, if_neg hkey, if_neg hne, Option.or_none]
    · rw [if_neg hname, Json.lookup_cons, ih]
      by_cases hkey : isRedactedKey key
      · have hne : name ≠ key := fun h => hname (h ▸ hkey)
        rw [if_pos hkey, if_pos hkey, if_neg hne]
        rfl
      · rw [if_neg hkey, if_neg hkey]
        cases Json.lookup rest key with
        | some inner => rfl
        | none => by_cases h : name = key <;> simp [h]

/-- Where nothing is dropped, the redaction leaves what is inside arrays as it is and
redacts the rest. -/
theorem at?_redactValue (path : List Json.Step) (value : Json) :
    (droppedAt path → (redactValue value).at? path = none) ∧
    (droppedAt path = false → InArray path → (redactValue value).at? path = value.at? path) ∧
    (droppedAt path = false → ¬ InArray path →
      (redactValue value).at? path = (value.at? path).map redactValue) := by
  induction path generalizing value with
  | nil => exact ⟨(fun h => (by cases h)), fun _ ⟨_, h⟩ => absurd h List.not_mem_nil, fun _ _ => rfl⟩
  | cons step path ih =>
    cases step with
    | index index =>
      -- an array is left as it is, whatever it holds
      have hsame : (redactValue value).at? (.index index :: path) =
          value.at? (.index index :: path) := by
        cases value with
        | object members => rfl
        | _ => rfl
      have hin : InArray (.index index :: path) := ⟨index, List.mem_cons_self⟩
      exact ⟨(fun h => (by cases h)), fun _ _ => hsame, fun _ hout => absurd hin hout⟩
    | key key =>
      cases value with
      | object members =>
        have hchild : (redactValue (.object members)).child (.key key) =
            if isRedactedKey key then none else (Json.lookup members key).map redactValue :=
          lookup_redact members key
        have hin : InArray (.key key :: path) ↔ InArray path := by simp [InArray]
        rw [Json.at?_cons, Json.at?_cons, hchild, hin]
        by_cases hkey : isRedactedKey key
        · simp [droppedAt, hkey]
        · have hdropped : droppedAt (.key key :: path) = droppedAt path := by
            simp [droppedAt, hkey]
          rw [if_neg hkey, hdropped]
          show _ ∧ (_ → _ → _ = (Json.lookup members key).bind _) ∧
            (_ → _ → _ = Option.map _ ((Json.lookup members key).bind _))
          cases Json.lookup members key with
          | none => exact ⟨fun _ => rfl, fun _ _ => rfl, fun _ _ => rfl⟩
          | some inner => exact ih inner
      | _ => exact ⟨fun _ => rfl, fun _ _ => rfl, fun _ _ => rfl⟩

/-- A clear place is not dropped. -/
theorem droppedAt_of_clear (h : Clear path) : droppedAt path = false := by
  induction path with
  | nil => rfl
  | cons step path ih =>
    have hrest : Clear path := fun step hstep => h step (List.mem_cons_of_mem _ hstep)
    cases step with
    | key key => rw [droppedAt, ih hrest, show isRedactedKey key = false from h _ List.mem_cons_self,
        Bool.or_false]
    | index index => rfl

/-- Beyond the array in which a clear place lies, nothing is dropped. -/
theorem droppedAt_append_of_clear (h : Clear path) (hin : InArray path) :
    droppedAt (path ++ path') = false := by
  induction path with
  | nil => exact absurd hin.choose_spec List.not_mem_nil
  | cons step path ih =>
    have hrest : Clear path := fun step hstep => h step (List.mem_cons_of_mem _ hstep)
    cases step with
    | index index => rfl
    | key key =>
      have hin' : InArray path := by
        obtain ⟨index, hindex⟩ := hin
        exact ⟨index, by simpa using hindex⟩
      rw [List.cons_append, droppedAt, ih hrest hin',
        show isRedactedKey key = false from h _ List.mem_cons_self, Bool.or_false]

/-- A place under a credential-shaped key that is not dropped has its first such key inside
an array. -/
theorem clear_part_of_not_droppedAt (h : droppedAt path = false) (hclear : ¬ Clear path) :
    ∃ front key back, path = front ++ .key key :: back ∧ Clear front ∧ InArray front ∧
      isRedactedKey key := by
  -- cut the place at the first credential-shaped key
  have hfirst : ∃ front key back, path = front ++ .key key :: back ∧ Clear front ∧
      isRedactedKey key := by
    clear h
    induction path with
    | nil => exact absurd (fun _ h => absurd h List.not_mem_nil) hclear
    | cons step path ih =>
      cases hstep : redactedStep step with
      | true =>
        cases step with
        | key key => exact ⟨[], key, path, rfl, fun _ h => absurd h List.not_mem_nil, hstep⟩
        | index index => cases hstep
      | false =>
        have hrest : ¬ Clear path := by
          intro hrest
          refine hclear fun other hother => ?_
          obtain rfl | hother := List.mem_cons.mp hother
          · exact hstep
          · exact hrest other hother
        obtain ⟨front, key, back, hpath, hfront, hkey⟩ := ih hrest
        refine ⟨step :: front, key, back, by rw [hpath, List.cons_append], ?_, hkey⟩
        intro other hother
        obtain rfl | hother := List.mem_cons.mp hother
        · exact hstep
        · exact hfront other hother
  obtain ⟨front, key, back, rfl, hfront, hkey⟩ := hfirst
  refine ⟨front, key, back, rfl, hfront, ?_, hkey⟩
  by_contra hout
  have hdropped : ∀ front : List Json.Step, ¬ InArray front →
      droppedAt (front ++ .key key :: back) := by
    intro front
    induction front with
    | nil => intro _; simp [droppedAt, hkey]
    | cons step front ih =>
      intro hout
      cases step with
      | index index => exact absurd ⟨index, List.mem_cons_self⟩ hout
      | key name =>
        have hout' : ¬ InArray front := fun ⟨index, hindex⟩ =>
          hout ⟨index, List.mem_cons_of_mem _ hindex⟩
        rw [List.cons_append, droppedAt, ih hout', Bool.or_true]
  rw [hdropped front hout] at h
  cases h

/-! ### What is promised and what is kept -/

theorem outline_redactValue (value : Json) : (redactValue value).outline = value.outline := by
  cases value with
  | _ => rfl

/-- The redaction loses nothing that lies under no credential-shaped key. -/
theorem keepsRest_redactValue (payload : Json) : KeepsRest payload (redactValue payload) := by
  intro path value hclear hvalue
  obtain ⟨-, hinside, houtside⟩ := at?_redactValue path payload
  by_cases hin : InArray path
  · rw [hinside (droppedAt_of_clear hclear) hin]
    exact ⟨value, hvalue, rfl⟩
  · rw [houtside (droppedAt_of_clear hclear) hin, hvalue]
    exact ⟨redactValue value, rfl, outline_redactValue value⟩

/-- It lets no credential-shaped key through exactly when the arrays have none. -/
theorem noRedactedKey_redactValue_iff (payload : Json) :
    NoRedactedKey (redactValue payload) ↔ ArraysClear payload := by
  constructor
  · intro h path key hclear hin hkey
    rw [← (at?_redactValue (path ++ [.key key]) payload).2.1
      (droppedAt_append_of_clear hclear hin) ?_]
    · exact h path key hkey
    · obtain ⟨index, hindex⟩ := hin
      exact ⟨index, List.mem_append_left _ hindex⟩
  · intro h path key hkey
    by_cases hdropped : droppedAt (path ++ [.key key])
    · exact (at?_redactValue _ payload).1 hdropped
    · rw [Bool.not_eq_true] at hdropped
      have hnot : ¬ Clear (path ++ [.key key]) := by
        intro hclear
        have hstep := hclear (.key key) (List.mem_append_right _ List.mem_cons_self)
        rw [redactedStep, hkey] at hstep
        cases hstep
      obtain ⟨front, first, back, hpath, hfront, hin, hfirst⟩ :=
        clear_part_of_not_droppedAt hdropped hnot
      have hin' : InArray (path ++ [.key key]) := by
        obtain ⟨index, hindex⟩ := hin
        exact ⟨index, hpath ▸ List.mem_append_left _ hindex⟩
      rw [(at?_redactValue _ payload).2.1 hdropped hin', hpath, List.append_cons, Json.at?_append,
        h front first hfront hin hfirst]
      rfl

/-- **What the export lets through.** In the exported row nothing is lost, and no key that
looks like a credential is left exactly when the arrays of the payload have none: the
redaction goes into objects, never into arrays. -/
theorem export_redaction_iff (event : StoredEvent) (row : ExportRow) (h : rowFor event = .ok row) :
    (NoRedactedKey row.payloadJson ∧ KeepsRest (.object event.payload) row.payloadJson) ↔
      ArraysClear (.object event.payload) := by
  rw [(columns_of_rowFor h).1, noRedactedKey_redactValue_iff]
  exact and_iff_left (keepsRest_redactValue _)

/-- An event with a credential in an object, and one with a credential in a list of objects. -/
def flatEvent : StoredEvent where
  entityType := "recovery_case"
  entityId := 1
  eventType := "hypothetical_leak"
  actorType := "system"
  payload := [("webhook_secret", .string "hidden"), ("note", .string "kept")]
  correlationId := none
  createdAt := 0

def listEvent : StoredEvent :=
  { flatEvent with payload := [("attempts", .array [.object [("api_key", .string "hidden")]])] }

/-- The one has no array at all. -/
theorem arraysClear_flatEvent : ArraysClear (.object flatEvent.payload) := by
  rintro path key - ⟨index, hindex⟩ -
  cases path with
  | nil => cases hindex
  | cons step path =>
    cases step with
    | index index => rfl
    | key member =>
      -- what is below a member is a text, and nothing is below a text
      have hleaf : ∀ value ∈ Json.lookup flatEvent.payload member, ∃ text, value = .string text := by
        intro value hvalue
        rw [Option.mem_def, flatEvent, Json.lookup_cons, Json.lookup_cons, Json.lookup_nil] at hvalue
        split_ifs at hvalue <;> simp at hvalue <;> exact ⟨_, hvalue.symm⟩
      rw [List.cons_append, Json.at?_cons]
      change (Json.lookup flatEvent.payload member).bind _ = none
      refine Option.bind_eq_none_iff.mpr fun value hvalue => ?_
      obtain ⟨text, rfl⟩ := hleaf value hvalue
      cases path with
      | nil => rfl
      | cons step path => rfl

/-- Its credential is left out, and its note is kept. -/
theorem flatEvent_redaction : ∃ row, rowFor flatEvent = .ok row ∧
    NoRedactedKey row.payloadJson ∧ KeepsRest (.object flatEvent.payload) row.payloadJson :=
  ⟨_, rfl, (export_redaction_iff flatEvent _ rfl).mpr arraysClear_flatEvent⟩

/-- The credential in the list is exported. -/
theorem listEvent_leaks : ∃ row, rowFor listEvent = .ok row ∧
    ¬ (NoRedactedKey row.payloadJson ∧ KeepsRest (.object listEvent.payload) row.payloadJson) := by
  refine ⟨_, rfl, ?_⟩
  rintro ⟨hsafe, -⟩
  have hleak := hsafe [.key "attempts", .index 0] "api_key" (by decide +kernel)
  cases hleak

end RecoverAI
