import RecoverAI.Domain.Errors
import RecoverAI.Domain.Policy

/-!
# The remote parties

What the services exchange with the payment provider
(`app/domain/providers/base.py`), with the AI service (`app/ai/schemas.py`,
`app/ai/context.py`, `app/ai/service.py`), and with the webhook endpoint
(`app/payments/webhooks.py`). What these parties answer is up to the environment.
-/

namespace RecoverAI

/-- A point in time, in microseconds. -/
abbrev Time := Int

def microsecondsPerHour : Int := 3_600_000_000

def microsecondsPerDay : Int := 86_400_000_000

/-- `datetime.max`, the last microsecond of the year 9999. -/
def datetimeMax : Time := 253_402_300_799_999_999

/-- `timedelta.days`: whole days, rounded down. -/
def wholeDays (elapsed : Int) : Int := elapsed / microsecondsPerDay

/-- A UUID, by its number. -/
abbrev Uuid := Nat

/-- The `width` lowest hexadecimal digits of a number. -/
def hexDigits : Nat → Nat → List Char
  | 0, _ => []
  | width + 1, n => hexDigits width (n / 16) ++ [Nat.digitChar (n % 16)]

theorem length_hexDigits (width n : Nat) : (hexDigits width n).length = width := by
  induction width generalizing n with
  | zero => rfl
  | succ width ih => rw [hexDigits, List.length_append, ih, List.length_singleton]

/-- Hexadecimal digits in groups of 8, 4, 4, 4 and the rest. -/
def uuidGroups (digits : List Char) : List Char :=
  digits.take 8 ++ '-' :: (digits.drop 8).take 4 ++ '-' :: (digits.drop 12).take 4 ++
    '-' :: (digits.drop 16).take 4 ++ '-' :: digits.drop 20

/-- `str` of a UUID. -/
def uuidText (id : Uuid) : String := String.ofList (uuidGroups (hexDigits 32 id))

theorem length_uuidText (id : Uuid) : (uuidText id).length = 36 := by
  have hgroups : ∀ digits : List Char, digits.length = 32 → (uuidGroups digits).length = 36 := by
    intro digits h
    simp [uuidGroups, h]
  rw [uuidText, String.length_ofList]
  exact hgroups _ (length_hexDigits 32 id)

/-! ### The payment provider -/

structure CreatePaymentLinkRequest where
  referenceId : String
  amount : Int
  currency : String
  description : String
  expireBy : Option Time
  deriving DecidableEq, Repr

/-- A payment link as the provider reports it. -/
structure PaymentLinkSnapshot where
  providerReference : String
  shortUrl : Option String
  status : RecoveryPaymentRequestStatus
  amount : Int
  amountPaid : Int
  currency : String
  referenceId : Option String
  expiresAt : Option Time
  deriving DecidableEq, Repr

/-- What a call of the provider may raise: a `PaymentProviderError`, or anything else. -/
inductive ProviderException where
  | paymentProvider (error : PaymentProviderError)
  | other (error : Raised)
  deriving DecidableEq, Repr

/-! ### The AI service -/

/-- A validated recommendation. -/
structure RecoveryRecommendation where
  diagnosisCategory : DiagnosisCategory
  recoveryConfidence : ℚ
  recommendedAction : RecoveryAction
  decisionExplanation : String
  confidence_mem : 0 ≤ recoveryConfidence ∧ recoveryConfidence ≤ 1
  explanation_length : 1 ≤ decisionExplanation.length ∧ decisionExplanation.length ≤ 600
  deriving DecidableEq, Repr

instance : Inhabited RecoveryRecommendation where
  default :=
    { diagnosisCategory := .other
      recoveryConfidence := 0
      recommendedAction := .stop
      decisionExplanation := "-"
      confidence_mem := by decide
      explanation_length := by decide }

/-- A recommendation with its provenance. -/
structure AIOutcome where
  decisionSource : DecisionSource
  recommendation : RecoveryRecommendation
  model : Option String
  promptVersion : String
  retryCount : Int
  failureCode : Option String
  failureMessage : Option String
  deriving DecidableEq, Repr, Inhabited

structure CustomerPaymentHistory where
  successfulPayments : Int
  failedPayments : Int
  deriving DecidableEq, Repr

structure PreviousRecoveryAction where
  action : RecoveryAction
  status : RecoveryAttemptStatus
  createdAt : Time
  deriving DecidableEq, Repr

/-- Everything the AI is shown for one diagnosis. -/
structure PaymentRecoveryContext where
  paymentId : String
  amount : Int
  currency : String
  failureReason : FailureReason
  paymentMethod : PaymentMethodType
  attemptNumber : Int
  customerPaymentHistory : CustomerPaymentHistory
  previousRecoveryActions : List PreviousRecoveryAction
  timeSinceFailureMinutes : Int
  deriving DecidableEq, Repr

/-! ### The webhook endpoint -/

/-- An event whose signature was verified. -/
structure ParsedWebhookEvent where
  /-- What the body has under `event`: a text, or null. -/
  eventType : Option String
  paymentLinkId : Option String
  paymentLinkStatus : Option String
  amountPaid : Option Int
  paymentId : Option String
  dedupKey : String
  deriving DecidableEq, Repr

end RecoverAI
