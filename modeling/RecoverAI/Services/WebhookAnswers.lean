import RecoverAI.Services.WebhookBodies

/-!
# When a signed webhook is answered

A delivery is answered by every working database exactly when its body fits what is read
of it (`Answerable`). The lookups of the parser want an object at every level, the types of
the columns want strings and integers, the set of relevant statuses wants a status that can
be hashed, and the response wants the event to be a string.
-/

namespace RecoverAI

namespace Untyped

open Python

/-- The computation ends with a result. -/
def Answers {α : Type} (x : Except EndpointException α) : Prop := ∃ a, x = .ok a

/-! ### What has to fit -/

/-- The member of an object, an empty object if there is none; nothing of other values. -/
def within (value : Json) (key : String) : Json :=
  match value with
  | .object members => (Json.lookup members key).getD (.object [])
  | _ => .null

/-- The entity of a kind, with every missing level an empty object. -/
def entityOf (payload : Json) (kind : String) : Json :=
  within (within (within payload "payload") kind) "entity"

/-- The event a payload names, the empty text if it names none. -/
def eventOf : Json → Json
  | .object members => (Json.lookup members "event").getD (.string "")
  | _ => .null

/-- The dedup key of a payload. -/
def keyOf (str : Json → String) (payload : Json) (eventId : Option String) : String :=
  match truthy eventId with
  | some id => s!"event_id:{id}"
  | none =>
    let paymentLinkId := (entityOf payload "payment_link").member "id"
    let paymentId := (entityOf payload "payment").member "id"
    s!"{textOf str (eventOf payload)}:{textOrEmpty str paymentLinkId}:{textOrEmpty str paymentId}"

/-- The event of a payload. -/
def eventFields (str : Json → String) (payload : Json) (eventId : Option String) :
    ParsedWebhookEvent where
  eventType := eventOf payload
  paymentLinkId := (entityOf payload "payment_link").member "id"
  paymentLinkStatus := (entityOf payload "payment_link").member "status"
  amountPaid := (entityOf payload "payment_link").member "amount_paid"
  paymentId := (entityOf payload "payment").member "id"
  dedupKey := keyOf str payload eventId

/-- The event says that a link is paid, expired or cancelled. -/
def ParsedWebhookEvent.isRelevant (event : ParsedWebhookEvent) : Bool :=
  relevantLinkStatuses.any event.paymentLinkStatus.isText

/-- What an event about a link has to be: its status can be hashed, and if that is a relevant
one, the link is named by a text, the amount is missing, zero or empty, or an integer, and
the payment can be written as JSON. -/
structure ParsedWebhookEvent.LinkFits (event : ParsedWebhookEvent) : Prop where
  status : event.paymentLinkStatus.isHashable
  link : event.isRelevant → SqlType.text.holds event.paymentLinkId
  amount : event.isRelevant → event.amountPaid.truth → SqlType.integer.holds event.amountPaid
  payment : event.isRelevant → event.paymentId.standard

/-- What an event has to be: it is named by nothing or by a short text, its key fits its
column, and the link fits if the event names itself and a link. -/
structure ParsedWebhookEvent.Fits (event : ParsedWebhookEvent) : Prop where
  name : event.eventType.isNull ∨ (SqlType.varchar 64).holds event.eventType
  key : (SqlType.varchar 255).holds (.string event.dedupKey)
  link : event.eventType.isNull = false → event.paymentLinkId.isNull = false → event.LinkFits

/-- What a payload has to be. -/
structure PayloadFits (str : Json → String) (payload : Json) (eventId : Option String) : Prop where
  link : (entityOf payload "payment_link").isObject
  payment : (entityOf payload "payment").isObject
  event : (eventFields str payload eventId).Fits

/-- What a body has to be. -/
def Answerable (str : Json → String) (body : Loaded) (eventId : Option String) : Prop :=
  match body with
  | .jsonDecodeError => True
  | .raises _ => False
  | .payload payload => PayloadFits str payload eventId

/-! ### The parser -/

section Parser

variable {str : Json → String} {payload value : Json} {eventId : Option String} {key kind : String}

/-- A look-up with a default raises on what is no object. -/
theorem get_eq : value.get key (.object []) =
    if value.isObject then .ok (within value key) else .error .attributeError := by
  cases value with
  | _ => rfl

/-- What has an object inside is one. -/
theorem isObject_of_within (h : (within value key).isObject) : value.isObject := by
  cases value with
  | object members => rfl
  | _ => cases h

/-- Levels that are objects are walked through. -/
theorem entity_eq (h : (entityOf payload kind).isObject) :
    entity payload kind = .ok (entityOf payload kind) := by
  -- The innermost level is an object, so every level above it is.
  have houter : (within (within payload "payload") kind).isObject := isObject_of_within h
  have hinner : (within payload "payload").isObject := isObject_of_within houter
  have hpayload : payload.isObject := isObject_of_within hinner
  simp only [entity, get_eq, hpayload, hinner, houter, if_true, bind, Except.bind, entityOf]

/-- Walking to an entity yields the one described, or raises. -/
theorem entity_eq_of_ok (h : entity payload kind = .ok value) : value = entityOf payload kind := by
  simp only [entity, get_eq, bind, Except.bind] at h
  -- At each level the look-up raises, unless that is an object.
  by_cases hpayload : payload.isObject
  · simp only [if_pos hpayload] at h
    by_cases hinner : (within payload "payload").isObject
    · simp only [if_pos hinner] at h
      by_cases houter : (within (within payload "payload") kind).isObject
      · simp only [if_pos houter] at h
        exact (Except.ok.inj h).symm
      · simp only [if_neg houter] at h
        cases h
    · simp only [if_neg hinner] at h
      cases h
  · simp only [if_neg hpayload] at h
    cases h

/-- The event is read of any object. -/
theorem get_event (h : payload.isObject) : payload.get "event" (.string "") = .ok (eventOf payload) := by
  cases payload with
  | object members => rfl
  | _ => cases h

/-- When both entities are objects, the parser reads the fields of the event. -/
theorem parseEvent_eq (hlink : (entityOf payload "payment_link").isObject)
    (hpayment : (entityOf payload "payment").isObject) :
    parseEvent str payload eventId = .ok (eventFields str payload eventId) := by
  have hpayload : payload.isObject :=
    isObject_of_within (isObject_of_within (isObject_of_within hlink))
  have hkey : buildDedupKey str payload eventId = .ok (keyOf str payload eventId) := by
    unfold buildDedupKey keyOf
    -- The header alone makes the key, or the payload does.
    cases truthy eventId with
    | some id => rfl
    | none =>
      simp only [get_event hpayload, entity_eq hlink, entity_eq hpayment, Json.get_null hlink,
        Json.get_null hpayment, bind, Except.bind, pure, Except.pure]
  simp only [parseEvent, hkey, get_event hpayload, entity_eq hlink, entity_eq hpayment,
    Json.get_null hlink, Json.get_null hpayment, bind, Except.bind, pure, Except.pure, eventFields]

/-- The parser reads the entities, which it can only when they are objects. -/
theorem isObject_of_parseEvent {event : ParsedWebhookEvent}
    (h : parseEvent str payload eventId = .ok event) :
    (entityOf payload "payment_link").isObject ∧ (entityOf payload "payment").isObject := by
  -- One bind for each field that is read; only those of the entities matter here.
  obtain ⟨eventType, -, h⟩ := Returns.bind_iff.mp ⟨event, h⟩
  obtain ⟨link, hlink, h⟩ := Returns.bind_iff.mp h
  obtain ⟨payment, hpayment, h⟩ := Returns.bind_iff.mp h
  obtain ⟨key, -, h⟩ := Returns.bind_iff.mp h
  obtain ⟨linkId, hlinkId, h⟩ := Returns.bind_iff.mp h
  obtain ⟨status, -, h⟩ := Returns.bind_iff.mp h
  obtain ⟨amount, -, h⟩ := Returns.bind_iff.mp h
  obtain ⟨paymentId, hpaymentId, -⟩ := Returns.bind_iff.mp h
  rw [← entity_eq_of_ok hlink, ← entity_eq_of_ok hpayment]
  exact ⟨Json.returns_get.mp ⟨linkId, hlinkId⟩, Json.returns_get.mp ⟨paymentId, hpaymentId⟩⟩

end Parser

/-! ### The database -/

section Processing

variable {db : Database} {event : ParsedWebhookEvent} {type : SqlType} {value : Json}

/-- A result is an answer. -/
theorem answers_ok {α : Type} {a : α} : Answers (.ok a : Except EndpointException α) := ⟨a, rfl⟩

/-- A computation in two steps answers if both do. -/
theorem answers_bind {α β : Type} {x : Except EndpointException α}
    {f : α → Except EndpointException β} : Answers (x >>= f) ↔ ∃ a, x = .ok a ∧ Answers (f a) := by
  cases x with
  | ok a => exact ⟨fun h => ⟨a, rfl, h⟩, fun ⟨_, ha, h⟩ => Except.ok.inj ha ▸ h⟩
  | error e => exact iff_of_false nofun nofun

/-- A statement comes before a rest: it has to be taken. -/
theorem answers_run_bind {α : Type} {f : Unit → Except EndpointException α} :
    Answers (db.run type value >>= f) ↔ db.takes type value ∧ Answers (f ()) := by
  unfold Database.run
  -- A statement that is not taken raises.
  by_cases h : db.takes type value
  · rw [if_pos h]
    exact ⟨fun hf => ⟨h, hf⟩, fun hboth => hboth.2⟩
  · rw [if_neg h]
    exact iff_of_false nofun fun hboth => h hboth.1

/-- What a working database answers for an event: with a type that the response takes. -/
def answer (db : Database) (event : ParsedWebhookEvent) :
    Except EndpointException WebhookAckResponse := do
  let status ← processWebhookEvent db event
  acknowledge status event.eventType

/-- The database that takes nothing but values of the right type, that has claimed nothing and
that has every link, with a case that is being executed. -/
def strictDatabase : Database where
  takes := SqlType.holds
  claimed := fun _ => false
  link := fun _ => some ⟨"L", 500, 0, some .executing⟩

/-- It carries out every statement with values of the right types. -/
theorem strictDatabase_working : strictDatabase.Working := fun _ _ h => h

/-- A status is acknowledged with the type of a typed event, or null. -/
theorem acknowledge_answers {status : WebhookStatus}
    (h : event.eventType.isNull ∨ (SqlType.varchar 64).holds event.eventType) :
    Answers (acknowledge status event.eventType) := by
  cases hevent : event.eventType with
  -- The response takes no other type than null and text.
  | null => exact answers_ok
  | string content => exact answers_ok
  | _ => rw [hevent] at h; simp [Json.isNull, SqlType.holds] at h

/-- A working database carries out a statement with a value of the right type. -/
theorem Database.Working.run (hdb : db.Working) (h : type.holds value) : db.run type value = .ok () :=
  if_pos (hdb type value h)

/-- What fits a limited column is text. -/
theorem SqlType.holds_text_of_varchar {width : ℕ} (h : (varchar width).holds value) :
    text.holds value := by
  cases value with
  | string content =>
    rw [holds, Bool.and_eq_true] at h
    exact h.2
  | _ => cases h

/-- Whatever fits a column can be written as JSON. -/
theorem SqlType.standard_of_holds (h : type.holds value) : value.standard := by
  -- Every column holds plain values, and those can be written.
  cases type with
  | json => exact h
  | varchar width =>
    cases value with
    | string content => rfl
    | _ => cases h
  | text =>
    cases value with
    | string content => rfl
    | _ => cases h
  | integer =>
    cases value with
    | int value => rfl
    | _ => cases h

/-- A status that can be hashed is looked for among the relevant ones. -/
theorem ParsedWebhookEvent.isAmong_eq (hhash : event.paymentLinkStatus.isHashable) :
    event.paymentLinkStatus.isAmong relevantLinkStatuses = .ok event.isRelevant := by
  unfold isRelevant
  cases hstatus : event.paymentLinkStatus with
  | string status =>
    show Except.ok (relevantLinkStatuses.contains status) = _
    rw [List.contains_eq_any_beq]
    rfl
  -- Lists and objects cannot be hashed.
  | array items => rw [hstatus] at hhash; cases hhash
  | object members => rw [hstatus] at hhash; cases hhash
  | _ => rfl

/-- A relevant status is text. -/
theorem ParsedWebhookEvent.standard_of_isRelevant (h : event.isRelevant) :
    event.paymentLinkStatus.standard := by
  obtain ⟨status, -, hstatus⟩ := List.any_eq_true.mp h
  cases hevent : event.paymentLinkStatus with
  | string content => rfl
  | _ => rw [hevent] at hstatus; cases hstatus

/-- An event that fits and is not claimed names itself. -/
theorem claimEvent_of_fits (hdb : db.Working) (h : event.Fits) :
    ∃ claimed, claimEvent db event = .ok claimed ∧
      (claimed = true → event.eventType.isNull = false) := by
  unfold claimEvent
  rw [hdb.run (SqlType.holds_text_of_varchar h.key)]
  show ∃ claimed, (if db.claimed event.dedupKey = true then _ else _) = _ ∧ _
  -- The key is claimed already.
  by_cases hclaimed : db.claimed event.dedupKey
  · rw [if_pos hclaimed]
    exact ⟨false, rfl, fun h => by cases h⟩
  · rw [if_neg hclaimed, hdb.run h.key]
    show ∃ claimed, (if event.eventType.isNull = true then _ else _) = _ ∧ _
    -- It is free, and then the type decides.
    obtain hnull | hname := h.name
    · rw [if_pos hnull]
      exact ⟨false, rfl, fun h => by cases h⟩
    · have hnull : event.eventType.isNull = false := by
        cases hevent : event.eventType with
        | null => rw [hevent] at hname; cases hname
        | _ => rfl
      rw [if_neg (by rw [hnull]; decide), hdb.run hname]
      exact ⟨true, rfl, fun _ => hnull⟩

/-- The amount a link is left with is an integer. -/
theorem storeAmount_of_fits (hdb : db.Working) (h : event.LinkFits) (hrelevant : event.isRelevant)
    (current : Int) : ∃ amount : ℤ, storeAmount db event.amountPaid current = .ok (.int amount) := by
  unfold storeAmount
  -- A falsy amount leaves the one the link has.
  by_cases htruth : event.amountPaid.truth
  · have hamount := h.amount hrelevant htruth
    rw [if_pos htruth, hdb.run hamount]
    cases hevent : event.amountPaid with
    | int amount => exact ⟨amount, rfl⟩
    | _ => rw [hevent] at hamount; cases hamount
  · rw [if_neg htruth]
    exact ⟨current, rfl⟩

/-- A relevant event that fits is applied to its case. -/
theorem applyToCase_answers (hdb : db.Working) (h : event.LinkFits) (hrelevant : event.isRelevant)
    (paymentRequest : LinkFacts) (caseStatus : RecoveryCaseStatus) :
    Answers (applyToCase db event paymentRequest caseStatus) := by
  obtain ⟨amount, hamount⟩ := storeAmount_of_fits hdb h hrelevant paymentRequest.amountPaid
  refine answers_bind.mpr ⟨_, hamount, answers_run_bind.mpr ⟨hdb .json _ ?_, ?_⟩⟩
  · simp [SqlType.holds, Json.standard, Json.standardMembers,
      ParsedWebhookEvent.standard_of_isRelevant hrelevant, h.payment hrelevant]
  · -- The case is left alone, recovered or failed; nothing else is stored in any of these ways.
    by_cases hstatus : caseStatus ≠ .executing
    · rw [if_pos hstatus]
      exact answers_ok
    · rw [if_neg hstatus]
      by_cases hpaid : event.paymentLinkStatus.isText RecoveryPaymentRequestStatus.paid.value
      · rw [if_pos hpaid]
        exact answers_ok
      · rw [if_neg hpaid]
        exact answers_ok

/-- A relevant event that fits is applied. -/
theorem applyPaymentLinkEvent_answers (hdb : db.Working) (hname : event.eventType.standard)
    (h : event.LinkFits) (hrelevant : event.isRelevant) :
    Answers (applyPaymentLinkEvent db event) := by
  have hlink := h.link hrelevant
  refine answers_run_bind.mpr ⟨hdb _ _ hlink, ?_⟩
  -- No link is known under the reference, or one without a case, or one with it.
  cases db.link event.paymentLinkId with
  | none =>
    refine answers_run_bind.mpr ⟨hdb .json _ ?_, answers_ok⟩
    simp [SqlType.holds, Json.standard, Json.standardMembers, SqlType.standard_of_holds hlink, hname]
  | some paymentRequest =>
    obtain ⟨reference, amount, amountPaid, caseStatus⟩ := paymentRequest
    cases caseStatus with
    | none => exact answers_ok
    | some caseStatus => exact applyToCase_answers hdb h hrelevant _ caseStatus

/-- A working database answers an event that fits. -/
theorem answers_of_fits (hdb : db.Working) (h : event.Fits) : Answers (answer db event) := by
  refine answers_bind.mpr ?_
  suffices hprocess : Answers (processWebhookEvent db event) by
    obtain ⟨status, hstatus⟩ := hprocess
    exact ⟨status, hstatus, acknowledge_answers h.name⟩
  obtain ⟨claimed, hclaimed, hnamed⟩ := claimEvent_of_fits hdb h
  refine answers_bind.mpr ⟨claimed, hclaimed, ?_⟩
  -- A claim that is lost is answered, and one that is won goes on.
  cases claimed with
  | false => exact answers_ok
  | true =>
    rw [if_pos rfl]
    -- An event about no link is ignored.
    by_cases hnone : event.paymentLinkId.isNull
    · rw [if_pos hnone]
      exact answers_ok
    · have hlink := h.link (hnamed rfl) (Bool.not_eq_true _ ▸ hnone)
      have hname : event.eventType.standard := by
        obtain hnull | hname := h.name
        · rw [hnamed rfl] at hnull
          cases hnull
        · exact SqlType.standard_of_holds hname
      rw [if_neg hnone]
      refine answers_bind.mpr ⟨event.isRelevant, ?_, ?_⟩
      · rw [ParsedWebhookEvent.isAmong_eq hlink.status]
        rfl
      · -- And so is one with another status.
        by_cases hrelevant : event.isRelevant
        · rw [if_pos hrelevant]
          exact applyPaymentLinkEvent_answers hdb hname hlink hrelevant
        · rw [if_neg hrelevant]
          exact answers_ok

/-! ### The strict database -/

/-- What the strict database applies fits. -/
theorem linkFits_of_answers (hhash : event.paymentLinkStatus.isHashable)
    (h : event.isRelevant → Answers (applyPaymentLinkEvent strictDatabase event)) :
    event.LinkFits := by
  -- All that the strict database has taken on the way.
  have hcase : event.isRelevant → SqlType.text.holds event.paymentLinkId ∧
      ∃ amount, storeAmount strictDatabase event.amountPaid 0 = .ok amount ∧
        SqlType.json.holds (.object [("provider_reference", .string "L"),
          ("status", event.paymentLinkStatus), ("amount_paid", amount),
          ("payment_id", event.paymentId)]) := by
    intro hrelevant
    obtain ⟨hlink, happlied⟩ := answers_run_bind.mp (h hrelevant)
    obtain ⟨amount, hamount, hrest⟩ := answers_bind.mp happlied
    exact ⟨hlink, amount, hamount, (answers_run_bind.mp hrest).1⟩
  refine ⟨hhash, fun hrelevant => (hcase hrelevant).1, fun hrelevant htruth => ?_,
    fun hrelevant => ?_⟩
  · obtain ⟨-, amount, hamount, -⟩ := hcase hrelevant
    unfold storeAmount at hamount
    rw [if_pos htruth] at hamount
    exact (answers_run_bind.mp ⟨amount, hamount⟩).1
  · obtain ⟨-, amount, -, hjson⟩ := hcase hrelevant
    simp only [SqlType.holds, Json.standard, Json.standardMembers, Bool.and_eq_true] at hjson
    exact hjson.2.2.2.1

/-- What the strict database takes as a claim fits, and is claimed unless it has no name. -/
theorem claimEvent_strict (h : Answers (claimEvent strictDatabase event)) :
    (SqlType.varchar 255).holds (.string event.dedupKey) ∧ (event.eventType.isNull ∨
      (SqlType.varchar 64).holds event.eventType ∧ claimEvent strictDatabase event = .ok true) := by
  -- The look-up and the insert have both been taken.
  obtain ⟨-, hunclaimed⟩ := answers_run_bind.mp h
  obtain ⟨htakes, hnamed⟩ := answers_run_bind.mp hunclaimed
  have hkey : (SqlType.varchar 255).holds (.string event.dedupKey) := htakes
  refine ⟨hkey, ?_⟩
  -- Without a type the insert is refused, which counts as lost.
  by_cases hnull : event.eventType.isNull
  · exact .inl hnull
  · rw [if_neg hnull] at hnamed
    have hname : (SqlType.varchar 64).holds event.eventType := (answers_run_bind.mp hnamed).1
    have hfree : strictDatabase.claimed event.dedupKey = false := rfl
    refine .inr ⟨hname, ?_⟩
    simp only [claimEvent, strictDatabase_working.run (SqlType.holds_text_of_varchar hkey),
      strictDatabase_working.run hkey, strictDatabase_working.run hname, hfree, hnull, bind,
      Except.bind, pure, Except.pure, if_false, Bool.false_eq_true]

/-- What is lifted was a result. -/
theorem returns_of_lift {α : Type} {x : Except Raises α} {a : α} (h : lift x = .ok a) :
    x = .ok a := by
  cases x with
  | ok b => cases h; rfl
  | error e => cases h

/-- The strict database answers no other. -/
theorem fits_of_answers (h : Answers (answer strictDatabase event)) : event.Fits := by
  obtain ⟨status, hprocess, -⟩ := answers_bind.mp h
  obtain ⟨claimed, hclaimed, hrest⟩ := answers_bind.mp ⟨status, hprocess⟩
  -- Either the type is null, and nothing is asked of the link, or the claim was won.
  obtain ⟨hkey, hnull | ⟨hname, htrue⟩⟩ := claimEvent_strict ⟨claimed, hclaimed⟩
  · exact ⟨.inl hnull, hkey, fun hnot => by rw [hnull] at hnot; cases hnot⟩
  · refine ⟨.inr hname, hkey, fun _ hlink => ?_⟩
    rw [hclaimed] at htrue
    cases htrue
    rw [if_pos rfl, if_neg (by rw [hlink]; decide)] at hrest
    -- The membership test was made, so the status can be hashed.
    obtain ⟨among, hamong, happlied⟩ := answers_bind.mp hrest
    have hreturns := returns_of_lift hamong
    have hhash : event.paymentLinkStatus.isHashable := Json.returns_isAmong.mp ⟨among, hreturns⟩
    refine linkFits_of_answers hhash fun hrelevant => ?_
    rw [ParsedWebhookEvent.isAmong_eq hhash, hrelevant] at hreturns
    cases hreturns
    exact happlied

end Processing

/-- **When a signed webhook is answered.** Whatever the body and the header, every working
database lets the endpoint answer exactly when the body is answerable. -/
theorem answered_iff_answerable (str : Json → String) (body : Loaded) (eventId : Option String) :
    (∀ db : Database, db.Working → Answers (receiveRazorpayWebhook str db body eventId)) ↔
      Answerable str body eventId := by
  cases body with
  | jsonDecodeError => exact iff_of_true (fun _ _ => answers_ok) trivial
  | raises error =>
    refine iff_of_false (fun h => ?_) id
    obtain ⟨ack, hack⟩ := h strictDatabase strictDatabase_working
    cases hack
  | payload payload =>
    constructor
    · intro h
      have hstrict := h strictDatabase strictDatabase_working
      -- The parser must not raise,
      cases hparsed : parseEvent str payload eventId with
      | error e =>
        rw [receiveRazorpayWebhook, hparsed] at hstrict
        exact absurd hstrict nofun
      | ok event =>
        -- and then the strict database asks for all that is claimed.
        obtain ⟨hlink, hpayment⟩ := isObject_of_parseEvent hparsed
        rw [receiveRazorpayWebhook, parseEvent_eq hlink hpayment] at hstrict
        exact ⟨hlink, hpayment, fits_of_answers hstrict⟩
    · -- The other way round any working database will do.
      rintro ⟨hlink, hpayment, hevent⟩ db hdb
      rw [receiveRazorpayWebhook, parseEvent_eq hlink hpayment]
      exact answers_of_fits hdb hevent

/-- A body in which `payload` is null. -/
def nullPayload : Json := .object [("event", .string "payment_link.paid"), ("payload", .null)]

/-- Whatever the database, the lookups of the parser raise an `AttributeError`. -/
theorem nullPayload_raises : strictDatabase.Working ∧ ∀ (str : Json → String) (db : Database),
    receiveRazorpayWebhook str db (.payload nullPayload) none =
      .error (.raises .attributeError) :=
  ⟨strictDatabase_working, fun _ _ => rfl⟩

/-! ### Payloads with a schema -/

/-- A payload whose fields have their types, as a decoded value. -/
def jsonOf (payload : WebhookPayload) : Json :=
  .object [("event", .string payload.event), ("payload", .object
    [("payment_link", .object [("entity", .object
        [("id", (payload.paymentLinkId.map Json.string).getD .null),
          ("status", (payload.paymentLinkStatus.map Json.string).getD .null),
          ("amount_paid", (payload.amountPaid.map Json.int).getD .null)])]),
      ("payment", .object [("entity", .object
        [("id", (payload.paymentId.map Json.string).getD .null)])])])]

/-- An event whose fields have their types, as a decoded one. -/
def eventOfTyped (event : RecoverAI.ParsedWebhookEvent) : ParsedWebhookEvent where
  eventType := (event.eventType.map Json.string).getD .null
  paymentLinkId := (event.paymentLinkId.map Json.string).getD .null
  paymentLinkStatus := (event.paymentLinkStatus.map Json.string).getD .null
  amountPaid := (event.amountPaid.map Json.int).getD .null
  paymentId := (event.paymentId.map Json.string).getD .null
  dedupKey := event.dedupKey

/-- An optional text, read as a decoded value. -/
theorem textOrEmpty_optional (str : Json → String) (text : Option String) :
    textOrEmpty str ((text.map Json.string).getD .null) = (truthy text).getD "" := by
  cases text with
  | none => rfl
  | some text =>
    by_cases h : text = ""
    · subst h
      rfl
    · rw [truthy_eq_some_iff.mpr ⟨rfl, h⟩]
      exact if_pos (decide_eq_true h)

/-- On payloads with a schema the parser is the one of the typed endpoint. -/
theorem parseEvent_jsonOf (str : Json → String) (payload : WebhookPayload)
    (eventId : Option String) : parseEvent str (jsonOf payload) eventId =
      .ok (eventOfTyped (RecoverAI.parseEvent payload eventId)) := by
  have hkey : keyOf str (jsonOf payload) eventId = RecoverAI.buildDedupKey payload eventId := by
    -- The parts of the key are the same texts.
    unfold keyOf RecoverAI.buildDedupKey
    cases truthy eventId with
    | some id => rfl
    | none =>
      rw [← textOrEmpty_optional str payload.paymentLinkId,
        ← textOrEmpty_optional str payload.paymentId]
      rfl
  rw [parseEvent_eq rfl rfl]
  show Except.ok { eventFields str (jsonOf payload) eventId with
    dedupKey := keyOf str (jsonOf payload) eventId } = _
  rw [hkey]
  rfl

end Untyped

end RecoverAI
