import RecoverAI.Services.WebhookEndpoint
import RecoverAI.Services.Operations

/-!
# Requests

How a request of the API becomes an operation: `correlation_id_middleware` in
`app/main.py` keeps the correlation id of the caller if its shape is safe and draws one
otherwise, and each endpoint of `app/api/v1` hands it to its service.
-/

namespace RecoverAI

/-- `_CORRELATION_ID_MAX_LENGTH`. -/
def correlationIdMaxLength : Nat := 128

/-- `[A-Za-z0-9._:-]`. -/
def isCorrelationIdChar (c : Char) : Bool := c.isAlphanum || c ∈ ['.', '_', ':', '-']

/-- `_CORRELATION_ID_PATTERN.match`. The `$` of the pattern also stands before a line
break that ends the text. -/
def matchesCorrelationIdPattern (raw : String) : Bool :=
  let chars := raw.toList
  let word := if chars.getLast? = some '\n' then chars.dropLast else chars
  !word.isEmpty && word.all isCorrelationIdChar

/-- `_safe_correlation_id`; `fresh` is the UUID it draws if it has to. -/
def safeCorrelationId (raw : Option String) (fresh : Uuid) : String :=
  match truthy raw with
  | some raw =>
    if raw.length ≤ correlationIdMaxLength ∧ matchesCorrelationIdPattern raw then raw
    else uuidText fresh
  | none => uuidText fresh

/-- `get_correlation_id() or str(uuid.uuid4())`. -/
def correlationIdOr (current : Option String) (fresh : Uuid) : String :=
  (truthy current).getD (uuidText fresh)

/-- The settings of the recovery loop, with the bounds of `app/core/config.py`. -/
structure OrchestratorSettings where
  orchestratorAutoExecute : Bool
  orchestratorMaxDiscover : Nat
  orchestratorMaxDiagnose : Nat
  orchestratorMaxExecute : Nat
  maxDiscover_ge : 1 ≤ orchestratorMaxDiscover
  maxDiagnose_ge : 1 ≤ orchestratorMaxDiagnose

/-- The arguments of `run_cycle`: what the caller overrides, and the settings. -/
def OrchestratorSettings.budget (settings : OrchestratorSettings) (autoExecute : Option Bool) :
    CycleBudget where
  autoExecute := autoExecute.getD settings.orchestratorAutoExecute
  maxDiscover := settings.orchestratorMaxDiscover
  maxDiagnose := settings.orchestratorMaxDiagnose
  maxExecute := settings.orchestratorMaxExecute

/-- A request that reaches a service, with what its endpoint reads. -/
inductive Request where
  | ingestPayment (request : PaymentIngestRequest)
  | createRecoveryCase (paymentId : Uuid)
  | discoverRecoveryCases (limit : Nat)
  | diagnoseRecoveryCase (caseId : Uuid)
  | executeRecoveryCase (caseId : Uuid)
  | receiveRazorpayWebhook (payload : WebhookPayload) (eventId : Option String)
  | runCycle (autoExecute : Option Bool) (settings : OrchestratorSettings)

namespace Request

/-- The operation an endpoint performs, given `get_correlation_id()` and the UUID it
falls back on. -/
def opUnder (current : Option String) (fresh : Uuid) : Request → Op
  | .ingestPayment request => .ingest request (correlationIdOr current fresh)
  | .createRecoveryCase paymentId => .createCase paymentId (correlationIdOr current fresh)
  | .discoverRecoveryCases limit => .discover limit (correlationIdOr current fresh)
  | .diagnoseRecoveryCase caseId => .diagnose caseId (correlationIdOr current fresh)
  | .executeRecoveryCase caseId => .execute caseId (correlationIdOr current fresh)
  | .receiveRazorpayWebhook payload eventId =>
    RecoverAI.receiveRazorpayWebhook payload eventId current
  | .runCycle autoExecute settings =>
    .cycle (settings.budget autoExecute) (correlationIdOr current fresh)

/-- The operation of a request with the given header `X-Correlation-Id`. The middleware
draws `fresh`, the endpoint `fresh'`, where they need one. -/
def op (request : Request) (header : Option String) (fresh fresh' : Uuid) : Op :=
  request.opUnder (some (safeCorrelationId header fresh)) fresh'

end Request

/-! ### What the middleware lets through -/

theorem uuidText_ne_empty (id : Uuid) : uuidText id ≠ "" := by
  intro h
  have hlength := length_uuidText id
  rw [h] at hlength
  cases hlength

/-- The result of the middleware fits the bound it puts on the header. -/
theorem length_safeCorrelationId (raw : Option String) (fresh : Uuid) :
    (safeCorrelationId raw fresh).length ≤ correlationIdMaxLength := by
  have hfresh : (uuidText fresh).length ≤ correlationIdMaxLength := by
    rw [length_uuidText]
    decide
  unfold safeCorrelationId
  split
  · next r _ =>
    by_cases hsafe : r.length ≤ correlationIdMaxLength ∧ matchesCorrelationIdPattern r
    · rw [if_pos hsafe]
      exact hsafe.1
    · rw [if_neg hsafe]
      exact hfresh
  · exact hfresh

theorem safeCorrelationId_ne_empty (raw : Option String) (fresh : Uuid) :
    safeCorrelationId raw fresh ≠ "" := by
  unfold safeCorrelationId
  split
  · next r hr =>
    split
    · exact ne_of_truthy hr
    · exact uuidText_ne_empty fresh
  · exact uuidText_ne_empty fresh

theorem truthy_safeCorrelationId (raw : Option String) (fresh : Uuid) :
    truthy (some (safeCorrelationId raw fresh)) = some (safeCorrelationId raw fresh) :=
  truthy_eq_some_iff.mpr ⟨rfl, safeCorrelationId_ne_empty raw fresh⟩

/-- Behind the middleware no endpoint falls back on an id of its own. -/
theorem correlationIdOr_safeCorrelationId (raw : Option String) (fresh fresh' : Uuid) :
    correlationIdOr (some (safeCorrelationId raw fresh)) fresh' = safeCorrelationId raw fresh := by
  rw [correlationIdOr, truthy_safeCorrelationId, Option.getD_some]

end RecoverAI
