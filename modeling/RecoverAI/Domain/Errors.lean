import Mathlib.Init

/-!
# What can be raised

The domain errors (`app/core/errors.py`), the provider errors
(`app/domain/providers/base.py`), and the exceptions of the database layer that
the services meet.
-/

namespace RecoverAI

/-- The subclasses of `RecoverAIError`, each with its message. -/
inductive RecoverAIError where
  | notFound (message : String)
  | invalidStateTransition (message : String)
  | concurrentModification (message : String)
  | validationFailed (message : String)
  deriving DecidableEq, Repr

/-- The subclasses of `PaymentProviderError`, and the class itself. -/
inductive PaymentProviderErrorKind where
  | base | timeout | auth | rateLimit | validation | ambiguous | unavailable
  deriving DecidableEq, Repr

/-- A failure the payment provider reports. -/
structure PaymentProviderError where
  kind : PaymentProviderErrorKind
  /-- The text of the exception, `str(exc)`. -/
  message : String
  deriving DecidableEq, Repr

/-- An exception on its way through a service. Only the constructors up to
`integrityError` are ever caught. A remote party may raise any of them. -/
inductive Raised where
  | recoverAI (error : RecoverAIError)
  | staleData
  | integrityError
  | multipleResultsFound
  | valueError (message : String)
  /-- Any other exception, of the AI provider, the payment provider or the
  interpreter. -/
  | other (message : String)
  deriving DecidableEq, Repr

end RecoverAI
