import RecoverAI.Framework.Json
import RecoverAI.Services.WebhookEndpoint

/-!
# The webhook endpoint on any body

`app/api/v1/webhooks.py` from the verified signature on, with `parse_event` and
`process_webhook_event` on whatever `json.loads` returns: no schema stands between the body
and the code, so every field of an event is a decoded value. The database is one that
`DATABASE_URL` may name. It answers the look-ups as it likes, and it carries out each
statement whose values have the types of their columns; of other values nothing is known.
No other request runs in between.

The texts of a body are Unicode texts. A lone surrogate, which `json.loads` makes of an
escape such as `\ud800`, is left out: it is no character of a text that can be stored.
-/

namespace RecoverAI

namespace Untyped

open Python

/-! ### The database -/

/-- The type a value is bound as. -/
inductive SqlType where
  /-- A column of at most `width` characters, written. -/
  | varchar (width : ℕ)
  /-- A column of texts, compared with. -/
  | text
  | integer
  | json
  deriving DecidableEq, Repr

/-- The values of a type: texts have no NUL, integers have 32 bits, and JSON has no numbers
beside the finite ones. -/
def SqlType.holds : SqlType → Json → Bool
  | .varchar width, .string content => content.length ≤ width && !content.toList.contains '\x00'
  | .text, .string content => !content.toList.contains '\x00'
  | .integer, .int value => -2147483648 ≤ value && value ≤ 2147483647
  | .json, value => value.standard
  | _, _ => false

/-- What is read of a payment link and of its case, which the link refers to. -/
structure LinkFacts where
  providerReference : String
  amount : Int
  amountPaid : Int
  caseStatus : Option RecoveryCaseStatus

/-- A database as one request meets it: the values it takes, the keys that are claimed, and
the links it finds. -/
structure Database where
  takes : SqlType → Json → Bool
  claimed : String → Bool
  link : Json → Option LinkFacts

/-- The database takes every value of the right type. -/
def Database.Working (db : Database) : Prop := ∀ type value, type.holds value → db.takes type value

/-! ### Exceptions -/

/-- What the endpoint may raise: an exception of the interpreter, one of the driver of the
database, or the `ValidationError` of the response. -/
inductive EndpointException where
  | raises (error : Raises)
  | dbapiError
  | validationError
  deriving DecidableEq, Repr

def lift {α : Type} : Except Raises α → Except EndpointException α
  | .ok a => .ok a
  | .error e => .error (.raises e)

/-- A statement that binds a value. -/
def Database.run (db : Database) (type : SqlType) (value : Json) : Except EndpointException Unit :=
  if db.takes type value then .ok () else .error .dbapiError

/-! ### `app/payments/webhooks.py` -/

structure ParsedWebhookEvent where
  eventType : Json
  paymentLinkId : Json
  paymentLinkStatus : Json
  amountPaid : Json
  paymentId : Json
  dedupKey : String

/-- `f"{value}"`, where `str` writes what is not a string. -/
def textOf (str : Json → String) : Json → String
  | .string text => text
  | value => str value

/-- `f"{value or ''}"` -/
def textOrEmpty (str : Json → String) (value : Json) : String :=
  if value.truth then textOf str value else ""

/-- `payload.get("payload", {}).get(kind, {}).get("entity", {})` -/
def entity (payload : Json) (kind : String) : Except Raises Json := do
  let inner ← payload.get "payload" (.object [])
  let outer ← inner.get kind (.object [])
  outer.get "entity" (.object [])

/-- `build_dedup_key` -/
def buildDedupKey (str : Json → String) (payload : Json) (eventId : Option String) :
    Except Raises String :=
  match truthy eventId with
  | some id => return s!"event_id:{id}"
  | none => do
    let eventType ← payload.get "event" (.string "")
    let paymentLinkEntity ← entity payload "payment_link"
    let paymentEntity ← entity payload "payment"
    let paymentLinkId ← paymentLinkEntity.get "id" .null
    let paymentId ← paymentEntity.get "id" .null
    return s!"{textOf str eventType}:{textOrEmpty str paymentLinkId}:{textOrEmpty str paymentId}"

/-- `parse_event` -/
def parseEvent (str : Json → String) (payload : Json) (eventId : Option String) :
    Except Raises ParsedWebhookEvent := do
  let eventType ← payload.get "event" (.string "")
  let paymentLinkEntity ← entity payload "payment_link"
  let paymentEntity ← entity payload "payment"
  let dedupKey ← buildDedupKey str payload eventId
  return {
    eventType := eventType
    paymentLinkId := ← paymentLinkEntity.get "id" .null
    paymentLinkStatus := ← paymentLinkEntity.get "status" .null
    amountPaid := ← paymentLinkEntity.get "amount_paid" .null
    paymentId := ← paymentEntity.get "id" .null
    dedupKey := dedupKey }

/-! ### `app/services/webhook_service.py` -/

/-- `_claim_event`. A type of `None` violates NOT NULL: that is an `IntegrityError`, which
counts as a lost race. -/
def claimEvent (db : Database) (event : ParsedWebhookEvent) : Except EndpointException Bool := do
  db.run .text (.string event.dedupKey)
  if db.claimed event.dedupKey then
    return false
  db.run (.varchar 255) (.string event.dedupKey)
  if event.eventType.isNull then
    return false
  db.run (.varchar 64) event.eventType
  return true

/-- `payment_request.amount_paid = event.amount_paid or payment_request.amount_paid`, with what
is then written: nothing if the amount stays. -/
def storeAmount (db : Database) (amountPaid : Json) (current : Int) :
    Except EndpointException Json := do
  if amountPaid.truth then
    db.run .integer amountPaid
    return amountPaid
  else
    return .int current

/-- The part of `_apply_payment_link_event` for a link and its case. What is recovered of an
executing case is the amount paid, so it is stored where that is. -/
def applyToCase (db : Database) (event : ParsedWebhookEvent) (paymentRequest : LinkFacts)
    (caseStatus : RecoveryCaseStatus) : Except EndpointException WebhookStatus := do
  let amountPaid ← storeAmount db event.amountPaid paymentRequest.amountPaid
  db.run .json (.object
    [("provider_reference", .string paymentRequest.providerReference),
      ("status", event.paymentLinkStatus), ("amount_paid", amountPaid),
      ("payment_id", event.paymentId)])
  if caseStatus ≠ .executing then
    return .ignored
  else if event.paymentLinkStatus.isText RecoveryPaymentRequestStatus.paid.value then
    -- whether it is fully paid decides between RECOVERED and FAILED
    let _fullyPaid ← lift (amountPaid.atLeast paymentRequest.amount)
    return .processed
  else
    return .processed

/-- `_apply_payment_link_event`, for a status among the relevant ones. -/
def applyPaymentLinkEvent (db : Database) (event : ParsedWebhookEvent) :
    Except EndpointException WebhookStatus := do
  db.run .text event.paymentLinkId
  match db.link event.paymentLinkId with
  | none =>
    db.run .json (.object [("payment_link_id", event.paymentLinkId), ("event_type", event.eventType)])
    return .ignored
  | some paymentRequest =>
    match paymentRequest.caseStatus with
    | none => return .ignored
    | some caseStatus => applyToCase db event paymentRequest caseStatus

/-- `process_webhook_event` -/
def processWebhookEvent (db : Database) (event : ParsedWebhookEvent) :
    Except EndpointException WebhookStatus := do
  if ← claimEvent db event then
    if event.paymentLinkId.isNull then
      return .ignored
    else if ← lift (event.paymentLinkStatus.isAmong relevantLinkStatuses) then
      applyPaymentLinkEvent db event
    else
      return .ignored
  else
    return .duplicate

/-! ### `app/api/v1/webhooks.py` -/

/-- How `json.loads` ends on the bytes of a body. -/
inductive Loaded where
  | payload (value : Json)
  | jsonDecodeError
  /-- Bytes that are text in no encoding, an integer of too many digits, or nesting beyond the
  recursion limit. -/
  | raises (error : Raises)

/-- `WebhookAckResponse`; a body that is not JSON, like one that is not signed, is rejected. -/
inductive WebhookAckResponse where
  | rejected
  | answered (status : WebhookStatus) (eventType : Option String)
  deriving DecidableEq, Repr

/-- The response to a delivery that has been processed; its `event_type` is a string or
`None`. -/
def acknowledge (status : WebhookStatus) : Json → Except EndpointException WebhookAckResponse
  | .string eventType => .ok (.answered status (some eventType))
  | .null => .ok (.answered status none)
  | _ => .error .validationError

/-- `receive_razorpay_webhook`, once the signature is verified. -/
def receiveRazorpayWebhook (str : Json → String) (db : Database) (body : Loaded)
    (eventId : Option String) : Except EndpointException WebhookAckResponse :=
  match body with
  | .jsonDecodeError => .ok .rejected
  | .raises error => .error (.raises error)
  | .payload payload => do
    let event ← lift (parseEvent str payload eventId)
    let status ← processWebhookEvent db event
    acknowledge status event.eventType

end Untyped

end RecoverAI
