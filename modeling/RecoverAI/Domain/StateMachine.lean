import RecoverAI.Domain.Enums
import RecoverAI.Domain.Errors

/-!
# The state machine of a recovery case

`app/domain/state_machine.py`: the table of legal transitions and the check every
service makes before it assigns a status.
-/

namespace RecoverAI

/-- The legal successors of a status. -/
def allowedTransitions : RecoveryCaseStatus → List RecoveryCaseStatus
  | .discovered => [.eligible, .ineligible]
  | .eligible => [.diagnosing, .stopped]
  | .ineligible => []
  | .diagnosing => [.recommended, .escalated]
  | .recommended => [.policyReview]
  | .policyReview => [.approved, .stopped, .escalated]
  | .approved => [.executing]
  | .executing => [.recovered, .failed, .escalated]
  | .failed => [.diagnosing, .stopped, .escalated]
  | .recovered => []
  | .stopped => []
  | .escalated => []

def isTerminal (status : RecoveryCaseStatus) : Bool :=
  terminalRecoveryCaseStatuses.contains status

def canTransition (current target : RecoveryCaseStatus) : Bool :=
  (allowedTransitions current).contains target

def validateTransition (current target : RecoveryCaseStatus) : Except RecoverAIError Unit :=
  if canTransition current target then .ok ()
  else
    .error (.invalidStateTransition
      s!"Cannot transition recovery case from '{current.value}' to '{target.value}'.")

/-- **Terminal statuses have no way out.** -/
theorem canTransition_of_isTerminal {current : RecoveryCaseStatus} (h : isTerminal current)
    (target : RecoveryCaseStatus) : canTransition current target = false := by
  cases current <;> simp [isTerminal, terminalRecoveryCaseStatuses] at h <;> rfl

/-- Only an approved case may start executing. -/
theorem canTransition_executing_iff {current : RecoveryCaseStatus} :
    canTransition current .executing ↔ current = .approved := by
  cases current <;> simp [canTransition, allowedTransitions]

theorem validateTransition_eq_ok_iff {current target : RecoveryCaseStatus} :
    validateTransition current target = .ok () ↔ canTransition current target := by
  unfold validateTransition
  split <;> simp_all

end RecoverAI
