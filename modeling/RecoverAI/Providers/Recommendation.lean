import RecoverAI.Domain.Providers
import Mathlib.Order.Bounds.Basic

/-!
# The AI recommendation service

`app/ai/service.py`: one diagnosis asks the AI provider up to `max_retries + 1` times and
falls back to an escalation. The provider is a script: what each of its calls does, in
order. Latencies are not part of the model.
-/

namespace RecoverAI

/-! ### The AI provider (`app/ai/providers/base.py`) -/

/-- The classes of `AIProviderError`. -/
inductive AIProviderErrorClass where
  | AIProviderError
  | AIProviderTimeoutError
  | AIProviderAuthError
  | AIProviderRateLimitError
  | AIProviderUnavailableError
  | AIProviderInvalidResponseError
  deriving DecidableEq, Repr

/-- `type(error).__name__` -/
def AIProviderErrorClass.name : AIProviderErrorClass → String
  | .AIProviderError => "AIProviderError"
  | .AIProviderTimeoutError => "AIProviderTimeoutError"
  | .AIProviderAuthError => "AIProviderAuthError"
  | .AIProviderRateLimitError => "AIProviderRateLimitError"
  | .AIProviderUnavailableError => "AIProviderUnavailableError"
  | .AIProviderInvalidResponseError => "AIProviderInvalidResponseError"

structure AIProviderError where
  type : AIProviderErrorClass
  message : String
  deriving DecidableEq, Repr

/-- What `diagnose_payment` does on its first call, its second, and so on. -/
abbrev AIProvider := ℕ → PaymentRecoveryContext → Except AIProviderError RecoveryRecommendation

/-- The failures that are plausibly transient. -/
def retryableErrorTypes : List AIProviderErrorClass :=
  [.AIProviderTimeoutError, .AIProviderRateLimitError, .AIProviderUnavailableError]

/-- The call at a position, counted from 1, needs no other call after it: it succeeds, or
it raises an error that is not retried. -/
def AIProvider.Settles (provider : AIProvider) (context : PaymentRecoveryContext)
    (position : ℕ) : Prop :=
  0 < position ∧ ∀ error, provider (position - 1) context = .error error →
    error.type ∉ retryableErrorTypes

/-! ### The recommendation schema (`app/ai/schemas.py`) -/

/-- The constructor of `RecoveryRecommendation`, which checks its fields. -/
def RecoveryRecommendation.validate (diagnosisCategory : DiagnosisCategory)
    (recoveryConfidence : ℚ) (recommendedAction : RecoveryAction) (decisionExplanation : String) :
    Except Raised RecoveryRecommendation :=
  if hconfidence : 0 ≤ recoveryConfidence ∧ recoveryConfidence ≤ 1 then
    if hlength : 1 ≤ decisionExplanation.length ∧ decisionExplanation.length ≤ 600 then
      .ok ⟨diagnosisCategory, recoveryConfidence, recommendedAction, decisionExplanation,
        hconfidence, hlength⟩
    else .error (.valueError "decision_explanation")
  else .error (.valueError "recovery_confidence")

/-! ### The service -/

/-- What a fallback says of the error that caused it; `reason[:200]` counts characters. -/
def fallbackExplanation (error : Option AIProviderError) : String :=
  let reason := (error.map AIProviderError.message).getD "AI provider unavailable"
  "AI diagnosis unavailable; escalating to a human reviewer. (" ++
    String.ofList (reason.toList.take 200) ++ ")"

/-- `_fallback_recommendation` -/
def fallbackRecommendation (error : Option AIProviderError) :
    Except Raised RecoveryRecommendation :=
  RecoveryRecommendation.validate .unknownFailure 0 .escalate (fallbackExplanation error)

/-- The service; its constructor lifts a negative number of retries to zero. -/
structure AIRecommendationService where
  modelName : String
  maxRetries : Int
  maxRetries_nonneg : 0 ≤ maxRetries

def AIRecommendationService.init (modelName : String) (maxRetries : Int) :
    AIRecommendationService where
  modelName := modelName
  maxRetries := max 0 maxRetries
  maxRetries_nonneg := le_max_left 0 maxRetries

/-- How the loop of `get_recommendation` ends: its counter, the number of calls the provider
has taken, and the recommendation or the last error. -/
structure LoopEnd where
  attempts : Int
  calls : ℕ
  result : Except (Option AIProviderError) RecoveryRecommendation

/-- The loop of `get_recommendation`. The provider counts its calls by itself, and what it
does depends on its count only. -/
def AIRecommendationService.callLoop (service : AIRecommendationService) (provider : AIProvider)
    (context : PaymentRecoveryContext) (attempts : Int) (lastError : Option AIProviderError)
    (calls : ℕ) : LoopEnd :=
  if attempts ≤ service.maxRetries then
    match provider calls context with
    | .error exc =>
      if exc.type ∈ retryableErrorTypes ∧ attempts + 1 ≤ service.maxRetries then
        service.callLoop provider context (attempts + 1) (some exc) (calls + 1)
      else ⟨attempts + 1, calls + 1, .error (some exc)⟩
    | .ok recommendation => ⟨attempts + 1, calls + 1, .ok recommendation⟩
  else ⟨attempts, calls, .error lastError⟩
  termination_by (service.maxRetries + 1 - attempts).toNat
  decreasing_by omega

/-- `get_recommendation`, with the number of calls it has made of the provider. -/
def AIRecommendationService.getRecommendation (service : AIRecommendationService)
    (provider : AIProvider) (context : PaymentRecoveryContext) : Except Raised AIOutcome × ℕ :=
  let ended := service.callLoop provider context 0 none 0
  match ended.result with
  | .ok recommendation =>
    (.ok
      { decisionSource := .ai
        recommendation := recommendation
        model := some service.modelName
        promptVersion := "diagnosis_v1"
        retryCount := ended.attempts - 1
        failureCode := none
        failureMessage := none }, ended.calls)
  | .error lastError =>
    ((fallbackRecommendation lastError).map fun recommendation =>
      { decisionSource := .fallback
        recommendation := recommendation
        model := none
        promptVersion := "diagnosis_v1"
        retryCount := ended.attempts - 1
        failureCode := some ((lastError.map fun error => error.type.name).getD "unknown_error")
        failureMessage := lastError.map AIProviderError.message }, ended.calls)

/-! ### The fallback fits the schema -/

theorem length_fallbackExplanation (error : Option AIProviderError) :
    1 ≤ (fallbackExplanation error).length ∧ (fallbackExplanation error).length ≤ 600 := by
  have hopen : "AI diagnosis unavailable; escalating to a human reviewer. (".length = 59 := by
    decide +kernel
  have hclose : ")".length = 1 := by decide +kernel
  unfold fallbackExplanation
  rw [String.length_append, String.length_append, hopen, hclose, String.length_ofList]
  have htake := List.length_take_le 200
    ((error.map AIProviderError.message).getD "AI provider unavailable").toList
  constructor
  · exact Nat.le_add_left 1 _
  · calc 59 + (List.take 200 _).length + 1 ≤ 59 + 200 + 1 :=
        Nat.add_le_add_right (Nat.add_le_add_left htake 59) 1
      _ ≤ 600 := by decide

theorem fallbackRecommendation_eq (error : Option AIProviderError) :
    fallbackRecommendation error =
      .ok ⟨.unknownFailure, 0, .escalate, fallbackExplanation error, by decide,
        length_fallbackExplanation error⟩ := by
  have hconfidence : (0 : ℚ) ≤ 0 ∧ (0 : ℚ) ≤ 1 := by decide
  unfold fallbackRecommendation RecoveryRecommendation.validate
  rw [dif_pos hconfidence, dif_pos (length_fallbackExplanation error)]

/-! ### What the loop does -/

variable {service : AIRecommendationService} {provider : AIProvider}
  {context : PaymentRecoveryContext}

/-- The positions at which the calls may stop: the last one the retries allow, and every
one whose call settles the matter. -/
def AIRecommendationService.stops (service : AIRecommendationService) (provider : AIProvider)
    (context : PaymentRecoveryContext) : Set ℕ :=
  {position | position = service.maxRetries.toNat + 1 ∨ provider.Settles context position}

/-- A position at which the calls may stop is the first such one when no call before it
settles the matter. -/
theorem AIRecommendationService.isLeast_stops {calls : ℕ}
    (hmem : calls + 1 ∈ service.stops provider context) (hmore : calls ≤ service.maxRetries)
    (hpast : ∀ position ≤ calls, ¬ provider.Settles context position) :
    IsLeast (service.stops provider context) (calls + 1) := by
  refine ⟨hmem, ?_⟩
  rintro position (hlast | hsettles)
  · omega
  · by_contra hlt
    exact hpast position (by omega) hsettles

/-- Whatever calls have been made, none of which settled the matter, the loop stops at
the least position at which it may stop, and reports the call made there. -/
theorem AIRecommendationService.callLoop_spec (service : AIRecommendationService) {attempts : Int}
    (lastError : Option AIProviderError) {calls : ℕ} (hcalls : attempts = calls)
    (hmore : attempts ≤ service.maxRetries) (hpast : ∀ position ≤ calls, ¬ provider.Settles context position) :
    IsLeast (service.stops provider context)
      (service.callLoop provider context attempts lastError calls).calls ∧
    (service.callLoop provider context attempts lastError calls).attempts =
      (service.callLoop provider context attempts lastError calls).calls ∧
    (service.callLoop provider context attempts lastError calls).result =
      (provider ((service.callLoop provider context attempts lastError calls).calls - 1)
        context).mapError some := by
  fun_induction AIRecommendationService.callLoop service provider context attempts lastError calls
    with
  | case1 attempts lastError calls hle exc hcall hretry ih =>
    have hretried : ∀ position ≤ calls + 1, ¬ provider.Settles context position := by
      intro position hle hsettles
      obtain hbefore | rfl := Nat.lt_or_eq_of_le hle
      · exact hpast position (by omega) hsettles
      · exact hsettles.2 exc (by rw [Nat.add_sub_cancel, hcall]) hretry.1
    exact ih (by omega) hretry.2 hretried
  | case2 attempts lastError calls hle exc hcall hretry =>
    have hstop : calls + 1 ∈ service.stops provider context := by
      by_cases htype : exc.type ∈ retryableErrorTypes
      · -- transient, but no retry is left
        have hlast := not_and.mp hretry htype
        exact .inl (by omega)
      · refine .inr ⟨Nat.succ_pos calls, ?_⟩
        intro error herror
        rw [Nat.add_sub_cancel, hcall] at herror
        cases herror
        exact htype
    refine ⟨isLeast_stops hstop (by omega) hpast, ?_, ?_⟩
    · show attempts + 1 = ((calls + 1 : ℕ) : Int)
      omega
    · show Except.error (some exc) = (provider (calls + 1 - 1) context).mapError some
      rw [Nat.add_sub_cancel, hcall]
      rfl
  | case3 attempts lastError calls hle recommendation hcall =>
    have hstop : calls + 1 ∈ service.stops provider context := by
      refine .inr ⟨Nat.succ_pos calls, ?_⟩
      intro error herror
      rw [Nat.add_sub_cancel, hcall] at herror
      cases herror
    refine ⟨isLeast_stops hstop (by omega) hpast, ?_, ?_⟩
    · show attempts + 1 = ((calls + 1 : ℕ) : Int)
      omega
    · show Except.ok recommendation = (provider (calls + 1 - 1) context).mapError some
      rw [Nat.add_sub_cancel, hcall]
      rfl
  | case4 attempts lastError calls hgt => exact absurd hmore hgt

/-- How `get_recommendation` answers for the call it stopped at. -/
structure AIOutcome.Reports (outcome : AIOutcome) (service : AIRecommendationService)
    (answer : Except AIProviderError RecoveryRecommendation) : Prop where
  /-- The AI is the source exactly when the call has succeeded, and then its recommendation
  is passed on. -/
  ai_iff : outcome.decisionSource = .ai ↔ ∃ recommendation, answer = .ok recommendation
  ofAI : ∀ recommendation, answer = .ok recommendation →
    outcome.recommendation = recommendation ∧ outcome.model = some service.modelName ∧
      outcome.failureCode = none
  /-- An error leads to an escalation that names it. -/
  ofError : ∀ error, answer = .error error →
    outcome.decisionSource = .fallback ∧
      outcome.recommendation.recommendedAction = .escalate ∧
      outcome.recommendation.recoveryConfidence = 0 ∧
      outcome.failureCode = some error.type.name ∧
      outcome.failureMessage = some error.message

/-- **Retries and fallback.** The provider is called up to the least position at which the
retries are exhausted or the call settles the matter, and the outcome reports that call. No
error text makes the service raise. -/
theorem getRecommendation_exact (modelName : String) (maxRetries : Int) (provider : AIProvider)
    (context : PaymentRecoveryContext) :
    ∃ outcome k,
      (AIRecommendationService.init modelName maxRetries).getRecommendation provider context =
        (.ok outcome, k) ∧
      IsLeast {position : ℕ | position = (max 0 maxRetries).toNat + 1 ∨
        provider.Settles context position} k ∧
      outcome.retryCount = k - 1 ∧
      outcome.Reports (AIRecommendationService.init modelName maxRetries)
        (provider (k - 1) context) := by
  have hpast : ∀ position ≤ 0, ¬ provider.Settles context position :=
    fun position hle hsettles => absurd hsettles.1 (by omega)
  obtain ⟨hleast, hattempts, hresult⟩ :=
    (AIRecommendationService.init modelName maxRetries).callLoop_spec none rfl
      (AIRecommendationService.init modelName maxRetries).maxRetries_nonneg hpast
  unfold AIRecommendationService.getRecommendation
  generalize (AIRecommendationService.init modelName maxRetries).callLoop provider context 0 none 0
    = ended at hleast hattempts hresult
  cases hcall : provider (ended.calls - 1) context with
  | ok recommendation =>
    rw [hcall] at hresult
    simp only [hresult, Except.mapError]
    refine ⟨_, _, rfl, hleast, by rw [hattempts], ?_⟩
    rw [hcall]
    exact ⟨by simp, by simp, by simp⟩
  | error error =>
    rw [hcall] at hresult
    simp only [hresult, Except.mapError, fallbackRecommendation_eq]
    refine ⟨_, _, rfl, hleast, by rw [hattempts], ?_⟩
    rw [hcall]
    exact ⟨by simp, by simp, by simp⟩

end RecoverAI
