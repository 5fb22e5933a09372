import RecoverAI.Services.Webhook

/-!
# The webhook endpoint

`app/payments/webhooks.py` and `app/api/v1/webhooks.py`, behind the check of the
signature: the payload of a signed body becomes an event, and the delivery is handed to
the webhook service. The dedup key is taken from a header, which no signature covers, or
else from the payload.
-/

namespace RecoverAI

/-- What is read of the JSON payload of a body whose event is a text; `event` is empty if it is
missing. -/
structure WebhookPayload where
  event : String
  paymentLinkId : Option String
  paymentLinkStatus : Option String
  amountPaid : Option Int
  paymentId : Option String
  deriving DecidableEq, Repr

/-- `build_dedup_key`, from the header `X-Razorpay-Event-Id` if there is one. -/
def buildDedupKey (payload : WebhookPayload) (eventId : Option String) : String :=
  match truthy eventId with
  | some id => s!"event_id:{id}"
  | none =>
    let eventType := payload.event
    let paymentLinkId := (truthy payload.paymentLinkId).getD ""
    let paymentId := (truthy payload.paymentId).getD ""
    s!"{eventType}:{paymentLinkId}:{paymentId}"

/-- `parse_event`. -/
def parseEvent (payload : WebhookPayload) (eventId : Option String) : ParsedWebhookEvent where
  eventType := some payload.event
  paymentLinkId := payload.paymentLinkId
  paymentLinkStatus := payload.paymentLinkStatus
  amountPaid := payload.amountPaid
  paymentId := payload.paymentId
  dedupKey := buildDedupKey payload eventId

/-- `receive_razorpay_webhook`, once the signature is verified. -/
def receiveRazorpayWebhook (payload : WebhookPayload) (eventId correlationId : Option String) : Op :=
  let event := parseEvent payload eventId
  .webhook event ((truthy correlationId).getD event.dedupKey)

/-- The payload an event was parsed from, if it has a type. -/
def ParsedWebhookEvent.payload? (event : ParsedWebhookEvent) : Option WebhookPayload :=
  event.eventType.map fun eventType =>
    { event := eventType
      paymentLinkId := event.paymentLinkId
      paymentLinkStatus := event.paymentLinkStatus
      amountPaid := event.amountPaid
      paymentId := event.paymentId }

@[simp] theorem payload?_parseEvent (payload : WebhookPayload) (eventId : Option String) :
    (parseEvent payload eventId).payload? = some payload := rfl

end RecoverAI
