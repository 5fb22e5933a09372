import RecoverAI.Domain.Providers
import RecoverAI.Framework.Json

/-!
# The Razorpay provider

`app/payments/providers/razorpay.py`, over whatever a request to Razorpay can come to: a
timeout, another `httpx.HTTPError`, or a response with any status and any body. The
provider decodes the bodies of successes and of errors without a schema, so the fields of
the links it returns are decoded values.
-/

namespace RecoverAI

namespace Razorpay

open Python

/-- A request to Razorpay, without its base URL and its credentials. -/
structure HttpRequest where
  method : String
  path : String
  json : Option Json
  params : List (String × String)

/-- A body, as `response.json()` reads it. -/
inductive Body where
  | json (value : Json)
  /-- Text that is not JSON, which raises a `ValueError`. -/
  | notJson
  /-- JSON nested beyond the recursion limit of the interpreter. -/
  | tooDeep

structure Response where
  statusCode : ℕ
  body : Body
  text : String

/-- What a request comes to. -/
inductive HttpOutcome where
  | timeout (text : String)
  /-- Any other `httpx.HTTPError`. -/
  | httpError (text : String)
  | response (response : Response)

/-- The `PaymentLinkSnapshot` the provider builds: its fields are what the body has in their
place. -/
structure LinkSnapshot where
  providerReference : Json
  shortUrl : Json
  status : RecoveryPaymentRequestStatus
  amount : Json
  amountPaid : Json
  currency : Json
  referenceId : Json
  expiresAt : Option Time

/-- An exception that is none of the provider's own. -/
def raw {α : Type} : Except Raises α → Except ProviderException α
  | .ok a => .ok a
  | .error e => .error (.other (.other e.name))

/-! ### Decoding -/

/-- `_to_unix`. -/
def toUnix (value : Time) : ℤ := value.tdiv 1_000_000

/-- `_from_unix`. -/
def fromUnix (value : Json) : Except Raises (Option Time) :=
  if !value.truth then .ok none else some <$> fromTimestamp value

/-- `_map_payment_link_status`. -/
def mapPaymentLinkStatus : Json → RecoveryPaymentRequestStatus
  | .string status => (RecoveryPaymentRequestStatus.ofValue? status).getD .created
  | _ => .created

/-- `_payment_link_from_response`. -/
def paymentLinkFromResponse (data : Json) : Except Raises LinkSnapshot := do
  let providerReference ← data.item "id"
  let shortUrl ← data.get "short_url" .null
  let status ← data.item "status"
  let amount ← data.item "amount"
  let amountPaid ← data.get "amount_paid" (.int 0)
  let currency ← data.item "currency"
  let referenceId ← data.get "reference_id" .null
  let expiresAt ← fromUnix (← data.get "expire_by" .null)
  return {
    providerReference
    shortUrl
    status := mapPaymentLinkStatus status
    amount
    amountPaid
    currency
    referenceId
    expiresAt }

/-- `response.json()`. -/
def Response.json (response : Response) : Except Raises Json :=
  match response.body with
  | .json value => .ok value
  | .notJson => .error .valueError
  | .tooDeep => .error .recursionError

/-! ### Requests -/

section Requests

-- `str` of a decoded value that is not a string
variable (str : Json → String)

/-- The value in an f-string. -/
def format : Json → String
  | .string value => value
  | value => str value

/-- The description of an error in a body, or the beginning of a text that is not JSON. -/
def errorDescription (response : Response) : Except Raises Json :=
  tryCatch (do
    let body ← response.json
    let error ← body.get "error" (.object [])
    error.get "description" (.string "")) fun
    | .valueError => .ok (.string (String.ofList (response.text.toList.take 200)))
    | e => .error e

/-- The kinds of `_classify_error_response`, by status code. -/
def errorKind (statusCode : ℕ) : PaymentProviderErrorKind :=
  if statusCode ∈ [401, 403] then .auth
  else if statusCode = 429 then .rateLimit
  else if statusCode ∈ [400, 422] then .validation
  else .unavailable

/-- `_classify_error_response`. -/
def classifyErrorResponse (response : Response) : Except Raises PaymentProviderError := do
  let description ← errorDescription response
  return {
    kind := errorKind response.statusCode
    message := s!"Razorpay returned {response.statusCode}: {format str description}" }

/-- `_request`, on what the client's request came to. -/
def request : HttpOutcome → Except ProviderException Json
  | .timeout text =>
    .error (.paymentProvider ⟨.timeout, s!"Razorpay request timed out: {text}"⟩)
  | .httpError text =>
    .error (.paymentProvider ⟨.unavailable, s!"Razorpay request failed: {text}"⟩)
  | .response response =>
    if response.statusCode < 300 then raw response.json
    else do throw (.paymentProvider (← raw (classifyErrorResponse str response)))

variable (client : HttpRequest → HttpOutcome)

/-- The search `find_payment_link_by_reference` sends. -/
def findRequest (referenceId : String) : HttpRequest where
  method := "GET"
  path := "/payment_links/"
  json := none
  params := [("reference_id", referenceId)]

/-- `find_payment_link_by_reference`. -/
def findPaymentLinkByReference (referenceId : String) :
    Except ProviderException (Option LinkSnapshot) := do
  let data ← request str (client (findRequest referenceId))
  let links ← raw (data.get "payment_links" (.array []))
  if !links.truth then
    return none
  let link ← raw links.first
  some <$> raw (paymentLinkFromResponse link)

/-- The creation `create_payment_link` sends. -/
def createRequest (request : CreatePaymentLinkRequest) : HttpRequest where
  method := "POST"
  path := "/payment_links/"
  json := some (.object ([
    ("amount", .int request.amount),
    ("currency", .string request.currency),
    ("reference_id", .string request.referenceId),
    ("description", .string request.description),
    ("accept_partial", .bool false)] ++
      (request.expireBy.map fun expireBy => ("expire_by", .int (toUnix expireBy))).toList))
  params := []

/-- `create_payment_link`. -/
def createPaymentLink (request : CreatePaymentLinkRequest) :
    Except ProviderException LinkSnapshot :=
  match Razorpay.request str (client (createRequest request)) with
  | .ok data => raw (paymentLinkFromResponse data)
  | .error (.paymentProvider e) =>
    if e.kind ∈ [.timeout, .unavailable] then
      .error (.paymentProvider
        ⟨.ambiguous, s!"Payment link creation result is uncertain: {e.message}"⟩)
    else .error (.paymentProvider e)
  | .error e => .error e

end Requests

end Razorpay

end RecoverAI
