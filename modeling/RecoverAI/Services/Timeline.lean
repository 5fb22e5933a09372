import RecoverAI.Services.Paging
import RecoverAI.Services.StoredEvents

/-!
# The timeline of a case

`app/services/timeline_service.py` with `get_case_timeline` of the audit repository: the
audit events of a case and of its attempts, oldest first. The case with its attempts is
loaded by one select and the events by another, so the two may see different states.
-/

namespace RecoverAI

open Interleave Python

/-- `AuditEventRepository.get_case_timeline` -/
def AuditEventRepository.getCaseTimeline (events : Table AuditEventRow) (caseId : Uuid)
    (attemptIds : List Uuid) (ranking : List Uuid) : List AuditEventRow :=
  orderedBy (fun e => e.createdAt) ranking (events.filter fun e =>
    (e.entityType = "recovery_case" ∧ e.entityId = caseId) ∨
      (attemptIds ≠ [] ∧ e.entityType = "recovery_attempt" ∧ e.entityId ∈ attemptIds))

structure TimelineEvent where
  id : Uuid
  eventType : String
  actorType : String
  payload : List (String × Json)
  correlationId : Option String
  createdAt : Time

/-- `TimelineEvent.model_validate` -/
def TimelineEvent.modelValidate (event : AuditEventRow) : TimelineEvent where
  id := event.id
  eventType := event.eventType
  actorType := event.actorType
  payload := event.payload
  correlationId := event.correlationId
  createdAt := event.createdAt

structure TimelineResponse where
  recoveryCaseId : Uuid
  events : List TimelineEvent

/-- `get_case_timeline`: `db` is what the select of the case sees, `events` are the rows the
select of the events sees. The environment ranks rows of one time. -/
def getCaseTimeline (db : Db) (events : Table AuditEventRow) (caseId : Uuid)
    (attemptRanking ranking : List Uuid) : Except RecoverAIError TimelineResponse :=
  match db.recoveryCases.get? caseId with
  | none => .error (.notFound s!"Recovery case '{uuidText caseId}' was not found.")
  | some _ =>
    let attemptIds := (db.attemptsOf attemptRanking caseId).map RecoveryAttempt.id
    let events := AuditEventRepository.getCaseTimeline events caseId attemptIds ranking
    .ok { recoveryCaseId := caseId, events := events.map TimelineEvent.modelValidate }

/-- The change of a status that an event shows. -/
def shownChange (eventType : String) (payload : List (String × Json)) : Option (String × String) :=
  if eventType = "recovery_case_status_changed" then
    match Json.lookup payload "from_status", Json.lookup payload "to_status" with
    | some (.string source), some (.string target) => some (source, target)
    | _, _ => none
  else none

/-- The changes of status that a timeline shows, from the first to the last. -/
def TimelineResponse.changes (response : TimelineResponse) : List (String × String) :=
  response.events.filterMap fun event => shownChange event.eventType event.payload

/-- No other event is recorded under this name. -/
theorem AuditBody.eventType_eq_statusChanged {body : AuditBody} :
    body.eventType = "recovery_case_status_changed" ↔
      ∃ source target reason, body = .recoveryCaseStatusChanged source target reason := by
  constructor
  · intro h
    cases body with
    | recoveryCaseStatusChanged source target reason => exact ⟨source, target, reason, rfl⟩
    | _ => simp [eventType] at h
  · rintro ⟨source, target, reason, rfl⟩
    rfl

end RecoverAI
