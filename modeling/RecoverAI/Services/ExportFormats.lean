import RecoverAI.Framework.Csv
import RecoverAI.Framework.JsonText
import RecoverAI.Services.Paging
import RecoverAI.Services.StoredEvents

/-!
# The formats of the export

`fetch_export_rows`, `rows_to_csv` and `rows_to_json` of `app/services/audit_export_service.py`,
and the endpoint `GET /audit-events/export`. Both formats write the same rows, and what the
services record survives either of them: the file is read back as one row for each event,
oldest first, with the whole payload of the event in its last column
(`export_restores_trail`).
-/

namespace RecoverAI

open Python Interleave

/-! ### Rows as text -/

/-- How a finite float is written, and `str` of a list or of a dict. -/
structure Printing where
  float : ℚ → List Char
  container : Json → List Char

/-- `EXPORT_COLUMNS` -/
def exportColumns : List String :=
  ["timestamp", "entity_type", "entity_id", "event_type", "actor_type", "correlation_id",
    "case_id", "payment_id", "from_status", "to_status", "reason", "policy_decision",
    "policy_reason_codes", "policy_version", "proposed_action", "recommended_action",
    "recovery_confidence", "diagnosis_category", "ai_model", "ai_decision_source",
    "ai_latency_ms", "amount", "currency", "provider_reference", "short_url", "final_outcome",
    "payload_json"]

/-- The row as the dict that `_row_for` returns. -/
def ExportRow.dict (rendering : Rendering) (printing : Printing) (row : ExportRow) :
    List (String × Json) :=
  [("timestamp", .string (rendering.isoformat row.timestamp)),
    ("entity_type", .string row.entityType),
    ("entity_id", .string row.entityId),
    ("event_type", .string row.eventType),
    ("actor_type", .string row.actorType),
    ("correlation_id", .string row.correlationId),
    ("case_id", .string row.caseId),
    ("payment_id", row.paymentId),
    ("from_status", row.fromStatus),
    ("to_status", row.toStatus),
    ("reason", row.reason),
    ("policy_decision", row.policyDecision),
    ("policy_reason_codes", .string row.policyReasonCodes),
    ("policy_version", row.policyVersion),
    ("proposed_action", row.proposedAction),
    ("recommended_action", row.recommendedAction),
    ("recovery_confidence", row.recoveryConfidence),
    ("diagnosis_category", row.diagnosisCategory),
    ("ai_model", row.aiModel),
    ("ai_decision_source", row.aiDecisionSource),
    ("ai_latency_ms", row.aiLatencyMs),
    ("amount", row.amount),
    ("currency", row.currency),
    ("provider_reference", row.providerReference),
    ("short_url", row.shortUrl),
    ("final_outcome", row.finalOutcome),
    ("payload_json", .string (Json.dumps Json.compact printing.float row.payloadJson))]

/-- What `csv.writer` writes for a value: nothing for `None`, else its `str`. -/
def cellText (printing : Printing) : Json → List Char
  | .null => []
  | .bool true => "True".toList
  | .bool false => "False".toList
  | .int n => Json.intText n
  | .float (.finite x) => printing.float x
  | .float (.infinite false) => "inf".toList
  | .float (.infinite true) => "-inf".toList
  | .float .nan => "nan".toList
  | .string text => text.toList
  | .array items => printing.container (.array items)
  | .object members => printing.container (.object members)

/-- The record `csv.DictWriter` makes of a dict. -/
def csvRecord (printing : Printing) (dict : List (String × Json)) : List (List Char) :=
  exportColumns.map fun column =>
    cellText printing ((Json.lookup dict column).getD (.string ""))

/-- `rows_to_csv` -/
def rowsToCsv (printing : Printing) (rows : List (List (String × Json))) : String :=
  String.ofList (Csv.write (exportColumns.map String.toList :: rows.map (csvRecord printing)))

/-- `rows_to_json` -/
def rowsToJson (printing : Printing) (rows : List (List (String × Json))) : String :=
  Json.dumps (Json.indented 2) printing.float (.array (rows.map .object))

/-- `fetch_export_rows` -/
def fetchExportRows (rendering : Rendering) (printing : Printing) (events : Table AuditEventRow)
    (filters : AuditEventFilters) (ranking : List Uuid) :
    Except Raises (List (List (String × Json))) :=
  (AuditEventRepository.listForExport events filters ranking).mapM fun event => do
    return (← rowFor event.toStoredEvent).dict rendering printing

inductive ExportFormat where
  | csv | json
  deriving DecidableEq, Repr

/-- A response with a file. -/
structure Download where
  content : String
  mediaType : String
  contentDisposition : String

/-- `export_audit_events` -/
def exportAuditEvents (rendering : Rendering) (printing : Printing)
    (events : Table AuditEventRow) (filters : AuditEventFilters) (ranking : List Uuid)
    (format : ExportFormat) : Except Raises Download := do
  let rows ← fetchExportRows rendering printing events filters ranking
  match format with
  | .json => return {
      content := rowsToJson printing rows
      mediaType := "application/json"
      contentDisposition := "attachment; filename=\"audit_trail.json\"" }
  | .csv => return {
      content := rowsToCsv printing rows
      mediaType := "text/csv"
      contentDisposition := "attachment; filename=\"audit_trail.csv\"" }

/-- What an exported row says about its event. -/
structure Shows (rendering : Rendering) (event : StoredEvent) (row : List (String × Json)) :
    Prop where
  columns : row.map Prod.fst = exportColumns
  timestamp : Json.lookup row "timestamp" = some (.string (rendering.isoformat event.createdAt))
  entityType : Json.lookup row "entity_type" = some (.string event.entityType)
  entityId : Json.lookup row "entity_id" = some (.string (uuidText event.entityId))
  eventType : Json.lookup row "event_type" = some (.string event.eventType)
  actorType : Json.lookup row "actor_type" = some (.string event.actorType)
  correlationId : Json.lookup row "correlation_id" =
    some (.string (event.correlationId.getD ""))
  payload : ∃ text, Json.lookup row "payload_json" = some (.string text) ∧
    Json.loads text = some (.object event.payload)

/-! ### What the services record has a row -/

variable {rendering : Rendering} {printing : Printing}

/-- The keys of the payloads. -/
def payloadKeys : List String :=
  ["payment_id", "revenue_at_risk", "source", "status", "amount", "currency", "failure_reason",
    "provider_payment_id", "case_status", "decision_source", "diagnosis_category", "model",
    "prompt_version", "latency_ms", "retry_count", "failure_code", "failure_message",
    "recommended_action", "recovery_confidence", "decision_explanation", "decision",
    "reason_codes", "policy_version", "proposed_action", "from_status", "to_status", "reason",
    "action", "provider_reference", "short_url", "expires_at", "error", "found",
    "payment_link_id", "event_type", "amount_paid", "auto_execute", "cases_discovered",
    "cases_diagnosed", "cases_executed", "cases_failed", "approved", "stopped", "escalated",
    "duration_seconds"]

/-- None of them looks like a credential. -/
theorem isRedactedKey_payloadKeys : ∀ key ∈ payloadKeys, isRedactedKey key = false := by
  decide +kernel

/-- An optional text is not redacted. -/
@[simp] theorem redactValue_optionalText (text : Option String) :
    redactValue (optionalText text) = optionalText text := by
  cases text <;> rfl

/-- What has only keys of payloads is not redacted. -/
theorem redact_eq_self {members : List (String × Json)}
    (h : ∀ m ∈ members, m.1 ∈ payloadKeys ∧ redactValue m.2 = m.2) : redact members = members := by
  induction members with
  | nil => rfl
  | cons first members ih =>
    obtain ⟨⟨hkey, hvalue⟩, hrest⟩ := List.forall_mem_cons.mp h
    obtain ⟨key, value⟩ := first
    rw [redact, isRedactedKey_payloadKeys key hkey, if_neg (by simp), hvalue, ih hrest]

/-- A payload of the services has no object in it, and only keys that are exported. -/
theorem redact_payload (body : AuditBody) (duration : Python.Float) :
    redact (body.payload rendering duration) = body.payload rendering duration := by
  -- Redaction keeps a member whose key is none of the credentials, if its value has no dict
  -- inside.
  apply redact_eq_self
  cases body <;> simp [AuditBody.payload, payloadKeys, redactValue]

/-- Only a change of a status has a status in its payload. -/
theorem exists_toStatus (rendering : Rendering) (body : AuditBody) (duration : Python.Float) :
    ∃ text, firstOf (body.payload rendering duration) ["to_status"] = optionalText text := by
  cases body with
  | recoveryCaseStatusChanged fromStatus toStatus reason => exact ⟨some toStatus.value, rfl⟩
  | _ => exact ⟨none, rfl⟩

/-- Reason codes are a list of strings. -/
theorem exists_reasonCodes (rendering : Rendering) (body : AuditBody) (duration : Python.Float) :
    ∃ codes, joined ((Json.lookup (body.payload rendering duration) "reason_codes").getD .null) =
      .ok codes := by
  -- The codes of a policy are texts, and texts are joined.
  have hcodes : ∀ reasonCodes : List PolicyReasonCode,
      ∃ codes, joined (.array (reasonCodes.map fun code => .string code.value)) = .ok codes := by
    intro reasonCodes
    obtain ⟨codes, h⟩ := exists_joined_strings (reasonCodes.map PolicyReasonCode.value)
    rw [List.map_map] at h
    exact ⟨codes, h⟩
  cases body with
  | policyEvaluated decision reasonCodes policyVersion proposedAction => exact hcodes reasonCodes
  | policyRechecked decision reasonCodes policyVersion => exact hcodes reasonCodes
  | _ => exact ⟨"", rfl⟩

/-- An event of the services has a row. -/
theorem exists_rowFor_stored (rendering : Rendering) (event : AuditEvent) :
    ∃ row, rowFor (event.stored rendering) = .ok row := by
  obtain ⟨text, htext⟩ := exists_toStatus rendering event.body (rendering.duration event)
  obtain ⟨codes, hcodes⟩ := exists_reasonCodes rendering event.body (rendering.duration event)
  -- A text can be looked for in the set, and so can None.
  have hfinal : ∃ isFinal, (optionalText text).isAmong exportTerminalStatuses = .ok isFinal := by
    cases text with
    | none => exact ⟨false, rfl⟩
    | some text => exact ⟨_, rfl⟩
  obtain ⟨isFinal, hfinal⟩ := hfinal
  rw [← htext] at hfinal
  exact exists_row hfinal hcodes

/-- So have several, and what holds of each holds of them together. -/
theorem exists_mapM_rowFor {events : List AuditEventRow}
    {P : AuditEventRow → List (String × Json) → Prop}
    (h : ∀ event ∈ events, ∃ row, rowFor event.toStoredEvent = .ok row ∧
      P event (row.dict rendering printing)) :
    ∃ rows, (events.mapM fun event => do
        return (← rowFor event.toStoredEvent).dict rendering printing) = .ok rows ∧
      List.Forall₂ P events rows ∧ ∀ row ∈ rows, ∃ event, P event row := by
  induction events with
  | nil => exact ⟨[], rfl, .nil, fun _ hrow => absurd hrow List.not_mem_nil⟩
  | cons event events ih =>
    obtain ⟨⟨row, hrow, hP⟩, hevents⟩ := List.forall_mem_cons.mp h
    obtain ⟨rows, hrows, hall, heach⟩ := ih hevents
    refine ⟨row.dict rendering printing :: rows, ?_, .cons hP hall,
      List.forall_mem_cons.mpr ⟨⟨event, hP⟩, heach⟩⟩
    rw [List.mapM_cons, hrow, hrows]
    rfl

/-! ### The floats of a row -/

/-- The value has no other floats than the payload. -/
def FloatsFrom (payload : List (String × Json)) (value : Json) : Prop :=
  ∀ x ∈ value.finites, x ∈ Json.finitesMembers payload

section Floats

variable {payload : List (String × Json)} {value : Json} {keys : List String}

/-- Null has no floats. -/
@[simp] theorem floatsFrom_null : FloatsFrom payload .null := fun _ h => absurd h List.not_mem_nil

/-- Nor has a text. -/
@[simp] theorem floatsFrom_string (text : String) : FloatsFrom payload (.string text) :=
  fun _ h => absurd h List.not_mem_nil

/-- What is looked up is a value of some member. -/
theorem exists_mem_of_lookup {members : List (String × Json)} {key : String}
    (h : Json.lookup members key = some value) : ∃ m ∈ members, m.2 = value := by
  obtain ⟨m, hm, rfl⟩ := Option.map_eq_some_iff.mp h
  exact ⟨m, List.mem_reverse.mp (List.mem_of_find?_eq_some hm), rfl⟩

/-- The first of some keys is a value of the payload. -/
@[simp] theorem floatsFrom_firstOf : FloatsFrom payload (firstOf payload keys) := by
  induction keys with
  | nil => exact floatsFrom_null
  | cons key keys ih =>
    rw [firstOf]
    -- A key that is missing or null passes on to the next one.
    split
    · exact ih
    · exact ih
    · next value hnull hvalue =>
      obtain ⟨m, hm, rfl⟩ := exists_mem_of_lookup hvalue
      exact fun x hx => Json.mem_finitesMembers.mpr ⟨m, hm, hx⟩

/-- The empty text has no floats. -/
@[simp] theorem FloatsFrom.orEmpty (h : FloatsFrom payload value) :
    FloatsFrom payload (orEmpty value) := by
  unfold RecoverAI.orEmpty
  split_ifs
  · exact h
  · exact floatsFrom_string ""

/-- A row has the base columns of its event, and the floats of its payload only. -/
structure ExportRow.Of (rendering : Rendering) (printing : Printing) (event : StoredEvent)
    (row : ExportRow) : Prop where
  timestamp : row.timestamp = event.createdAt
  entityType : row.entityType = event.entityType
  entityId : row.entityId = uuidText event.entityId
  eventType : row.eventType = event.eventType
  actorType : row.actorType = event.actorType
  correlationId : row.correlationId = event.correlationId.getD ""
  floats : ∀ m ∈ row.dict rendering printing, FloatsFrom event.payload m.2

/-- A row that is made is so. -/
theorem of_rowFor {event : StoredEvent} {row : ExportRow} (h : rowFor event = .ok row) :
    row.Of rendering printing event := by
  unfold rowFor at h
  -- Two things could raise, the look-up in the set and the joining; here neither does.
  cases hfinal : (firstOf event.payload ["to_status"]).isAmong exportTerminalStatuses with
  | error e => simp [hfinal, bind, Except.bind] at h
  | ok isFinal =>
    cases hcodes : joined ((Json.lookup event.payload "reason_codes").getD .null) with
    | error e => simp [hfinal, hcodes, bind, Except.bind] at h
    | ok codes =>
      simp only [hfinal, hcodes, bind, Except.bind, pure, Except.pure, Except.ok.injEq] at h
      subst h
      have houtcome : FloatsFrom event.payload
          (if isFinal then firstOf event.payload ["to_status"] else .null) := by
        split_ifs <;> simp
      exact ⟨rfl, rfl, rfl, rfl, rfl, rfl, by simp [ExportRow.dict, houtcome]⟩

end Floats

/-! ### A record of a dict -/

/-- With each key once, each is looked up where it stands. -/
theorem lookup_of_nodup {members : List (String × Json)} (hnodup : (members.map Prod.fst).Nodup)
    {m : String × Json} (hm : m ∈ members) : Json.lookup members m.1 = some m.2 := by
  induction members with
  | nil => cases hm
  | cons first members ih =>
    obtain ⟨hfirst, hrest⟩ := List.nodup_cons.mp hnodup
    rw [Json.lookup_cons]
    rcases List.mem_cons.mp hm with rfl | hm
    · -- None of the later members has the key of the first.
      have hnone : Json.lookup members m.1 = none := by
        rw [Json.lookup, Option.map_eq_none_iff, List.find?_eq_none]
        intro m' hm' he
        refine hfirst (List.mem_map.mpr ⟨m', List.mem_reverse.mp hm', ?_⟩)
        simpa using he
      rw [hnone, Option.none_or, if_pos rfl]
    · rw [ih hrest hm, Option.some_or]

/-- The columns are distinct. -/
theorem nodup_exportColumns : exportColumns.Nodup := by decide

/-- A record has the values of the dict, in their order. -/
theorem csvRecord_eq {dict : List (String × Json)} (h : dict.map Prod.fst = exportColumns) :
    csvRecord printing dict = dict.map fun m => cellText printing m.2 := by
  -- The columns are the keys of the dict, so each is looked up where it stands.
  have hnodup : (dict.map Prod.fst).Nodup := h ▸ nodup_exportColumns
  rw [csvRecord, ← h, List.map_map]
  refine List.map_congr_left fun m hm => ?_
  show cellText printing ((Json.lookup dict m.1).getD (.string "")) = _
  rw [lookup_of_nodup hnodup hm]
  rfl

/-! ### Both formats -/

section Formats

variable {event : StoredEvent} {row : ExportRow}

/-- A row shows its event, provided nothing of the payload is redacted and its floats are read
back. -/
theorem shows_of_rowFor (h : rowFor event = .ok row) (hredact : redact event.payload = event.payload)
    (hfloats : ∀ x ∈ Json.finitesMembers event.payload, Json.ReadsBack printing.float x) :
    Shows rendering event (row.dict rendering printing) := by
  -- The base columns of the row are those of the event.
  have hof : row.Of rendering printing event := of_rowFor h
  have hnodup : ((row.dict rendering printing).map Prod.fst).Nodup := nodup_exportColumns
  have hlookup : ∀ m ∈ row.dict rendering printing,
      Json.lookup (row.dict rendering printing) m.1 = some m.2 := fun m hm =>
    lookup_of_nodup hnodup hm
  -- Nothing is redacted, so the payload is whole.
  have hpayload : row.payloadJson = .object event.payload := by
    rw [(columns_of_rowFor h).1, redactValue, hredact]
  simp only [ExportRow.dict, List.forall_mem_cons] at hlookup
  obtain ⟨htimestamp, hentity, hid, hevent, hactor, hcorrelation, hrest⟩ := hlookup
  constructor
  case columns => rfl
  case timestamp => rw [← hof.timestamp]; exact htimestamp
  case entityType => rw [← hof.entityType]; exact hentity
  case entityId => rw [← hof.entityId]; exact hid
  case eventType => rw [← hof.eventType]; exact hevent
  case actorType => rw [← hof.actorType]; exact hactor
  case correlationId => rw [← hof.correlationId]; exact hcorrelation
  case payload =>
    refine ⟨Json.dumps Json.compact printing.float row.payloadJson, ?_, ?_⟩
    · -- the last of the columns
      exact hrest.2.2.2.2.2.2.2.2.2.2.2.2.2.2.2.2.2.2.2.2.1
    · rw [Json.loads_dumps]
      · rw [hpayload]
      · rw [hpayload]
        exact hfloats

/-- The file in CSV has the header and a record for each row. -/
theorem read_rowsToCsv {rows : List (List (String × Json))}
    (h : ∀ row ∈ rows, row.map Prod.fst = exportColumns) :
    Csv.read (rowsToCsv printing rows).toList = some (exportColumns.map String.toList ::
      rows.map fun row => row.map fun m => cellText printing m.2) := by
  rw [rowsToCsv, String.toList_ofList, Csv.read_write]
  -- Each record has the cells of its row.
  have hrecords : rows.map (csvRecord printing) =
      rows.map fun row => row.map fun m => cellText printing m.2 :=
    List.map_congr_left fun row hrow => csvRecord_eq (h row hrow)
  rw [hrecords]

/-- The file in JSON has an object for each row. -/
theorem loads_rowsToJson {rows : List (List (String × Json))}
    (h : ∀ row ∈ rows, ∀ m ∈ row, ∀ x ∈ m.2.finites, Json.ReadsBack printing.float x) :
    Json.loads (rowsToJson printing rows) = some (.array (rows.map .object)) := by
  -- A float of the file is one of a cell.
  refine Json.loads_dumps _ fun x hx => ?_
  obtain ⟨v, hv, hx⟩ := Json.mem_finitesItems.mp hx
  obtain ⟨row, hrow, rfl⟩ := List.mem_map.mp hv
  obtain ⟨m, hm, hx⟩ := Json.mem_finitesMembers.mp hx
  exact h row hrow m hm x hx

/-- What is downloaded is what was fetched, in the format. -/
theorem exportAuditEvents_of_rows {events : Table AuditEventRow} {filters : AuditEventFilters}
    {ranking : List Uuid} {rows : List (List (String × Json))}
    (h : fetchExportRows rendering printing events filters ranking = .ok rows)
    (format : ExportFormat) :
    ∃ file, exportAuditEvents rendering printing events filters ranking format = .ok file ∧
      file.content = match format with
        | .csv => rowsToCsv printing rows
        | .json => rowsToJson printing rows := by
  unfold exportAuditEvents
  rw [h]
  cases format with
  | csv => exact ⟨_, rfl, rfl⟩
  | json => exact ⟨_, rfl, rfl⟩

end Formats

/-- **The export restores the trail.** Whatever the services have recorded, the export succeeds in
both formats. The two have the same rows, one for each matching event and the oldest first; a
row has the time, the entity, the type, the actor and the correlation id of its event, and its
last column decodes to the whole payload. -/
theorem export_restores_trail {events : Table AuditEventRow} {recorded : List AuditEvent}
    (hrecorded : events.map AuditEventRow.toStoredEvent =
      recorded.map (AuditEvent.stored rendering))
    (hfloats : ∀ event ∈ events, ∀ x ∈ Json.finitesMembers event.payload,
      Json.ReadsBack printing.float x)
    (filters : AuditEventFilters) (ranking : List Uuid) :
    ∃ csv json rows,
      exportAuditEvents rendering printing events filters ranking .csv = .ok csv ∧
      exportAuditEvents rendering printing events filters ranking .json = .ok json ∧
      Csv.read csv.content.toList = some (exportColumns.map String.toList ::
        rows.map fun row => row.map fun m => cellText printing m.2) ∧
      Json.loads json.content = some (.array (rows.map .object)) ∧
      ∃ listed : List AuditEventRow, listed.Perm (filters.matching events) ∧
        listed.Pairwise (fun a b => a.createdAt ≤ b.createdAt) ∧
        List.Forall₂ (fun event row => Shows rendering event.toStoredEvent row) listed rows := by
  -- Each event that is listed has been recorded by a service, so it has a row.
  have hrow : ∀ event ∈ AuditEventRepository.listForExport events filters ranking,
      ∃ row, rowFor event.toStoredEvent = .ok row ∧
        Shows rendering event.toStoredEvent (row.dict rendering printing) ∧
        ∀ m ∈ row.dict rendering printing, ∀ x ∈ m.2.finites, Json.ReadsBack printing.float x := by
    intro event hevent
    have hmem : event ∈ events :=
      (filters.matching_sublist events).subset (mem_orderedBy.mp hevent)
    have hmap := List.mem_map_of_mem (f := AuditEventRow.toStoredEvent) hmem
    rw [hrecorded] at hmap
    obtain ⟨body, -, hbody⟩ := List.mem_map.mp hmap
    obtain ⟨row, hrow⟩ := exists_rowFor_stored rendering body
    rw [hbody] at hrow
    have hredact : redact event.payload = event.payload := by
      rw [← hbody]
      exact redact_payload body.body _
    exact ⟨row, hrow, shows_of_rowFor hrow hredact (hfloats event hmem),
      fun m hm x hx => hfloats event hmem x ((of_rowFor hrow).floats m hm x hx)⟩
  -- The rows are made one after the other, and none of them raises.
  obtain ⟨rows, hrows, hshown, heach⟩ := exists_mapM_rowFor
    (P := fun event row => Shows rendering event.toStoredEvent row ∧
      ∀ m ∈ row, ∀ x ∈ m.2.finites, Json.ReadsBack printing.float x) hrow
  have hcolumns : ∀ row ∈ rows, row.map Prod.fst = exportColumns := fun row hrow =>
    let ⟨_, hshows, _⟩ := heach row hrow
    hshows.columns
  have hback : ∀ row ∈ rows, ∀ m ∈ row, ∀ x ∈ m.2.finites, Json.ReadsBack printing.float x :=
    fun row hrow =>
      let ⟨_, _, hback⟩ := heach row hrow
      hback
  obtain ⟨csv, hcsv, hcsvContent⟩ := exportAuditEvents_of_rows hrows .csv
  obtain ⟨json, hjson, hjsonContent⟩ := exportAuditEvents_of_rows hrows .json
  refine ⟨csv, json, rows, hcsv, hjson, ?_, ?_, _, orderedBy_perm _ _ _,
    pairwise_orderedBy _ _ _, hshown.imp fun _ _ h => h.1⟩
  · rw [hcsvContent]
    exact read_rowsToCsv hcolumns
  · rw [hjsonContent]
    exact loads_rowsToJson hback

/-- A trail with a recommendation, whose payload has a float. -/
def recommendation : AuditEvent where
  entity := .recoveryCase 1
  body := .recoveryRecommendationCreated .sendPaymentLink (1 / 2) "\"Card\" declined,\nretry"
  actorType := .ai
  correlationId := none
  createdAt := 0

/-- One half is written as in Python. -/
def halfPrinting : Printing := ⟨fun _ => "0.5".toList, fun _ => []⟩

/-- Times, ids and durations, written somehow. -/
def plainRendering : Rendering := ⟨fun _ => "1970-01-01T00:00:00+00:00", fun _ => 0, fun _ => .nan⟩

/-- One half is a float. -/
theorem nearest_half : Json.nearest (1 / 2) = .finite (1 / 2) := by
  -- The exponent of one half is -1, so the unit in its last place is 2 ^ -53.
  have hlog : Int.log 2 |(1 / 2 : ℚ)| = -1 := by
    have h : |(1 / 2 : ℚ)| = ((2 : ℕ) : ℚ) ^ (-1 : ℤ) := by norm_num
    rw [h, Int.log_zpow (by norm_num)]
  have hround : roundHalfEven (2 ^ 52) = 2 ^ 52 := by decide +kernel
  have hunit : max (-1 - 52 : ℤ) (-1074) = -53 := by decide
  have hscale : (1 / 2 : ℚ) / 2 ^ (-53 : ℤ) = 2 ^ 52 := by norm_num
  have hvalue : (((2 : ℤ) ^ 52 : ℤ) : ℚ) * 2 ^ (-53 : ℤ) = 1 / 2 := by norm_num
  have hsmall : |(1 / 2 : ℚ)| < 2 ^ 1024 := calc
    |(1 / 2 : ℚ)| < 1 := by norm_num
    _ ≤ 2 ^ 1024 := one_le_pow₀ (by norm_num)
  unfold Json.nearest
  rw [hlog]
  simp only [hunit, hscale, hround, hvalue]
  exact if_pos hsmall

/-- It is read back from how it is written. -/
theorem readsBack_half : Json.ReadsBack halfPrinting.float (1 / 2) := by
  have hscan : Json.scanNumber "0.5".toList =
      some (.float (Json.nearest (5 * 10 ^ (0 - 1 : ℤ))), []) := rfl
  have hvalue : (5 * 10 ^ (0 - 1 : ℤ) : ℚ) = 1 / 2 := by norm_num
  rw [Json.ReadsBack, halfPrinting, hscan, hvalue, nearest_half]

/-- The trail with the recommendation is restored. -/
theorem export_restores_trail_recommendation :
    ∃ csv json rows,
      exportAuditEvents plainRendering halfPrinting
        [⟨recommendation.stored plainRendering, 7⟩] ⟨none, none, none, none⟩ [] .csv = .ok csv ∧
      exportAuditEvents plainRendering halfPrinting
        [⟨recommendation.stored plainRendering, 7⟩] ⟨none, none, none, none⟩ [] .json = .ok json ∧
      Csv.read csv.content.toList = some (exportColumns.map String.toList ::
        rows.map fun row => row.map fun m => cellText halfPrinting m.2) ∧
      Json.loads json.content = some (.array (rows.map .object)) ∧
      ∃ listed : List AuditEventRow,
        listed.Perm (AuditEventFilters.matching ⟨none, none, none, none⟩
          [⟨recommendation.stored plainRendering, 7⟩]) ∧
        listed.Pairwise (fun a b => a.createdAt ≤ b.createdAt) ∧
        List.Forall₂ (fun event row => Shows plainRendering event.toStoredEvent row) listed rows := by
  have hrecorded : ([⟨recommendation.stored plainRendering, 7⟩] : Table AuditEventRow).map
      AuditEventRow.toStoredEvent = [recommendation].map (AuditEvent.stored plainRendering) := rfl
  refine export_restores_trail hrecorded ?_ ⟨none, none, none, none⟩ []
  -- The only float of the payload is the confidence.
  intro event hevent x hx
  rw [List.mem_singleton.mp hevent] at hx
  have hhalf : x ∈ [(1 / 2 : ℚ)] := hx
  rw [List.mem_singleton.mp hhalf]
  exact readsBack_half

end RecoverAI
