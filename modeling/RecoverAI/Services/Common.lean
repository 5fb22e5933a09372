import RecoverAI.Domain.StateMachine
import RecoverAI.Services.Session

/-!
# What the services share

The audit writer (`app/services/audit_service.py`), the concurrency guard
(`app/services/concurrency.py`), the transition helper each service has a copy of,
and the policy configuration read from the settings.

A session writes back a changed object at its next flush. Where the source leaves
changed objects to the flush inside `record_event`, the statements for them are
the last argument of `recordEvent`.
-/

namespace RecoverAI

open Interleave Service

/-- Statements for the objects a session has changed; none if nothing changed. -/
def RecoveryCase.pendingUpdate (before after : RecoveryCase) : List Stmt :=
  if after = before then [] else [.updateCase before after]

/-- The object after its update was flushed. -/
def RecoveryCase.flushed (before after : RecoveryCase) : RecoveryCase :=
  if after = before then after else { after with version := before.version + 1 }

theorem RecoveryCase.flushed_status (before after : RecoveryCase) :
    (before.flushed after).status = after.status := by
  unfold flushed
  split <;> rfl

theorem RecoveryCase.flushed_id (before after : RecoveryCase) :
    (before.flushed after).id = after.id := by
  unfold flushed
  split <;> rfl

def RecoveryAttempt.pendingUpdate (before after : RecoveryAttempt) : List Stmt :=
  if after = before then [] else [.updateAttempt before after]

def RecoveryPaymentRequest.pendingUpdate (before after : RecoveryPaymentRequest) : List Stmt :=
  if after = before then [] else [.updatePaymentRequest before after]

/-- `audit_service.record_event`. -/
def recordEvent (entity : AuditEntity) (body : AuditBody) (actorType : ActorType)
    (correlationId : String) (dirty : List Stmt) : Service Unit := do
  let createdAt ← now
  flush (dirty ++
    [.insertAuditEvent { entity, body, actorType, correlationId := some correlationId, createdAt }])

/-- `guard_against_concurrent_modification`. -/
def guardAgainstConcurrentModification {α : Type} (operation : Service α) : Service α :=
  tryCatch operation fun
    | .staleData => do
      rollback
      raise (.concurrentModification
        ("This recovery case was modified by another request while this one was in " ++
          "progress. Reload it and, if still appropriate, retry."))
    | e => throw e

/-- `_transition`: check, assign, flush and record a change of status. `before` is
the case as loaded, `recoveryCase` the object with what was assigned to it since,
`dirty` what else the flush writes. A status is never its own successor
in `allowedTransitions`, so the update is always emitted. -/
def transition (before recoveryCase : RecoveryCase) (target : RecoveryCaseStatus)
    (correlationId : String) (reason : Option String) (dirty : List Stmt) :
    Service RecoveryCase := do
  let fromStatus := recoveryCase.status
  ofExcept (validateTransition fromStatus target)
  let recoveryCase := { recoveryCase with status := target }
  flush (.updateCase before recoveryCase :: dirty)
  let recoveryCase := { recoveryCase with version := before.version + 1 }
  recordEvent (.recoveryCase recoveryCase.id)
    (.recoveryCaseStatusChanged fromStatus target reason) .system correlationId []
  return recoveryCase

/-- `get_policy_config()`. -/
def readPolicyConfig : Service PolicyConfig := do
  return getPolicyConfig (← getSettings)

/-- The truth value of a string in `or`: `None` and `""` are false. -/
def truthy (s : Option String) : Option String := s.filter (· ≠ "")

theorem truthy_eq_some_iff {s : Option String} {a : String} :
    truthy s = some a ↔ s = some a ∧ a ≠ "" := by
  simp [truthy, Option.filter_eq_some_iff]

/-- The blank text stands for none. -/
theorem getD_truthy (s : Option String) : (truthy s).getD "" = s.getD "" := by
  cases s with
  | none => rfl
  | some text =>
    by_cases h : text = ""
    · subst h
      rfl
    · rw [truthy_eq_some_iff.mpr ⟨rfl, h⟩]

theorem ne_of_truthy {s : Option String} {a : String} (h : truthy s = some a) : a ≠ "" :=
  (truthy_eq_some_iff.mp h).2

end RecoverAI
