import RecoverAI.Runs.AuditTrail
import RecoverAI.Runs.Links
import RecoverAI.Services.StoredEvents

/-!
# Exported outcomes

The export gives a row a final outcome when it records a change to one of
`exportTerminalStatuses`. FAILED is among these, but a case may leave FAILED again: the
outcomes of a case are final exactly as long as it has never done so.
-/

namespace RecoverAI

open Interleave Python

/-- The change of status an event records. -/
def AuditEvent.change? (event : AuditEvent) : Option (RecoveryCaseStatus × RecoveryCaseStatus) :=
  match event.body with
  | .recoveryCaseStatusChanged source target _ => some (source, target)
  | _ => none

/-- The outcome an event is exported with. -/
def AuditEvent.outcome (event : AuditEvent) : String :=
  match event.change? with
  | some (_, target) => if target.value ∈ exportTerminalStatuses then target.value else ""
  | none => ""

/-- The events of a case, in commit order. -/
def Db.eventsOf (db : Db) (caseId : Uuid) : List AuditEvent :=
  db.auditEvents.filter fun event => event.entity = .recoveryCase caseId

/-- The exported rows of a case have at most one final outcome, which is that of its last
change of status and the status it has. -/
structure OutcomesFinal (rendering : Rendering) (db : Db) (caseId : Uuid) : Prop where
  exported : ∀ event ∈ db.eventsOf caseId, ∃ row, rowFor (event.stored rendering) = .ok row
  final : ∀ front event back row, db.eventsOf caseId = front ++ event :: back →
    rowFor (event.stored rendering) = .ok row → row.finalOutcome ≠ .string "" →
      (∀ other ∈ front ++ back, ∀ row', rowFor (other.stored rendering) = .ok row' →
        row'.finalOutcome = .string "") ∧
      event.change?.isSome ∧ (∀ other ∈ back, other.change? = none) ∧
      ∃ status, db.statusOf caseId = some status ∧ row.finalOutcome = .string status.value

/-! ### The rows of recorded events -/

section Outcomes

variable {rendering : Rendering} {event : AuditEvent} {caseId : Uuid} {db : Db}

/-- An event that records no change, and whose reason codes can be joined, has a row without
an outcome. -/
theorem exists_row_of_quiet {stored : StoredEvent} {codes : String}
    (hstatus : Json.lookup stored.payload "to_status" = none)
    (hcodes : joined ((Json.lookup stored.payload "reason_codes").getD .null) = .ok codes) :
    ∃ row, rowFor stored = .ok row ∧ row.finalOutcome = .string "" := by
  have hfirst : firstOf stored.payload ["to_status"] = .null := by rw [firstOf, hstatus, firstOf]
  obtain ⟨row, hrow⟩ := exists_row (by rw [hfirst]; rfl) hcodes
  obtain ⟨-, isFinal, -, houtcome⟩ := columns_of_rowFor hrow
  rw [hfirst, ite_self] at houtcome
  exact ⟨row, hrow, houtcome⟩

/-- Every recorded event has a row, with its outcome. -/
theorem AuditEvent.rowFor_stored (rendering : Rendering) (event : AuditEvent) :
    ∃ row, rowFor (event.stored rendering) = .ok row ∧ row.finalOutcome = .string event.outcome := by
  obtain ⟨entity, body, actorType, correlationId, createdAt⟩ := event
  cases body with
  | recoveryCaseStatusChanged source target reason =>
    have hvalue : target.value ≠ "" := by cases target <;> decide
    refine ⟨_, rfl, ?_⟩
    show orEmpty (if exportTerminalStatuses.contains target.value then .string target.value
      else .null) = _
    simp only [outcome, change?, List.contains_iff_mem]
    by_cases h : target.value ∈ exportTerminalStatuses
    · rw [if_pos h, if_pos h, orEmpty, if_pos (by simp [Json.truth, hvalue])]
    · rw [if_neg h, if_neg h]
      rfl
  | policyEvaluated decision reasonCodes policyVersion proposedAction =>
    obtain ⟨codes, hcodes⟩ := exists_joined_strings (reasonCodes.map PolicyReasonCode.value)
    rw [List.map_map] at hcodes
    exact exists_row_of_quiet rfl hcodes
  | policyRechecked decision reasonCodes policyVersion =>
    obtain ⟨codes, hcodes⟩ := exists_joined_strings (reasonCodes.map PolicyReasonCode.value)
    rw [List.map_map] at hcodes
    exact exists_row_of_quiet rfl hcodes
  | _ => exact ⟨_, rfl, rfl⟩

/-- The outcome of a row is that of its event. -/
theorem AuditEvent.finalOutcome_of_rowFor {row : ExportRow}
    (h : rowFor (event.stored rendering) = .ok row) : row.finalOutcome = .string event.outcome := by
  obtain ⟨row', hrow', houtcome⟩ := event.rowFor_stored rendering
  rw [h] at hrow'
  cases hrow'
  exact houtcome

/-- Where an event has an outcome, it records a change to it. -/
theorem AuditEvent.exists_change_of_outcome (h : event.outcome ≠ "") :
    ∃ source target, event.change? = some (source, target) ∧
      target.value ∈ exportTerminalStatuses ∧ event.outcome = target.value := by
  unfold outcome at h ⊢
  cases hchange : event.change? with
  | none => rw [hchange] at h; exact absurd rfl h
  | some change =>
    obtain ⟨source, target⟩ := change
    simp only [hchange] at h ⊢
    by_cases hmem : target.value ∈ exportTerminalStatuses
    · exact ⟨source, target, rfl, hmem, by rw [if_pos hmem]⟩
    · rw [if_neg hmem] at h
      exact absurd rfl h

/-- A status with an outcome is one no case leaves, or FAILED. -/
theorem mem_exportTerminalStatuses_iff {status : RecoveryCaseStatus} :
    status.value ∈ exportTerminalStatuses ↔ isTerminal status ∨ status = .failed := by
  cases status <;> decide

/-! ### Outcomes along the trail -/

/-- The trail of a case is what its events record. -/
theorem trail_eq (db : Db) (caseId : Uuid) :
    db.trail caseId = (db.eventsOf caseId).filterMap AuditEvent.change? := by
  have hevent : ∀ event : AuditEvent,
      ((Stmt.insertAuditEvent event).change?.bind fun x => if x.1 = caseId then some x.2 else none) =
        if event.entity = .recoveryCase caseId then event.change? else none := by
    intro event
    obtain ⟨entity, body, actorType, correlationId, createdAt⟩ := event
    cases entity with
    | recoveryCase id =>
      cases body with
      | recoveryCaseStatusChanged source target reason =>
        simp [Stmt.change?, AuditEvent.change?]
      | _ => exact (ite_self _).symm
    | _ => rfl
  unfold Db.trail changesOf Db.eventsOf
  rw [List.filterMap_map, List.filterMap_filterMap, List.filterMap_filter]
  congr 1
  funext event
  exact (hevent event).trans (by simp)

/-- A chain can be cut at any place. -/
theorem Chain.exists_of_append {s s' : RecoveryCaseStatus}
    {l l' : List (RecoveryCaseStatus × RecoveryCaseStatus)} (h : Chain s (l ++ l') s') :
    ∃ m, Chain s l m ∧ Chain m l' s' := by
  induction l generalizing s with
  | nil => exact ⟨s, rfl, h⟩
  | cons change l ih =>
    obtain ⟨hs, hstep, hrest⟩ := h
    obtain ⟨m, hl, hl'⟩ := ih hrest
    exact ⟨m, ⟨hs, hstep, hl⟩, hl'⟩

/-- A chain that ends elsewhere than it begins has a last change, to where it ends. -/
theorem Chain.exists_last {s s' : RecoveryCaseStatus}
    {l : List (RecoveryCaseStatus × RecoveryCaseStatus)} (h : Chain s l s') (hne : s ≠ s') :
    ∃ front source, l = front ++ [(source, s')] := by
  obtain rfl | ⟨front, ⟨source, target⟩, rfl⟩ := List.eq_nil_or_concat l
  · exact absurd h hne
  · rw [List.concat_eq_append] at h ⊢
    obtain ⟨m, -, -, -, hend⟩ := h.exists_of_append
    obtain rfl : target = s' := hend
    exact ⟨front, source, rfl⟩

/-- A chain that does not leave FAILED ends where it reaches a status with an outcome. -/
theorem Chain.ends_of_outcome {s s' source target : RecoveryCaseStatus}
    {l l' : List (RecoveryCaseStatus × RecoveryCaseStatus)}
    (h : Chain s (l ++ (source, target) :: l') s')
    (houtcome : target.value ∈ exportTerminalStatuses)
    (hstays : ∀ change ∈ l', change.1 ≠ .failed) : l' = [] ∧ s' = target := by
  obtain ⟨m, -, -, -, hrest⟩ := h.exists_of_append
  cases l' with
  | nil => exact ⟨rfl, Eq.symm hrest⟩
  | cons change l' =>
    obtain ⟨hsource, hstep, -⟩ := hrest
    obtain hterminal | hfailed := mem_exportTerminalStatuses_iff.mp houtcome
    · rw [hsource, canTransition_of_isTerminal hterminal] at hstep
      cases hstep
    · exact absurd (hsource.trans hfailed) (hstays change List.mem_cons_self)

/-- **The exported outcomes of a case are final exactly when it has never left FAILED.** -/
theorem Chain.outcomesFinal_iff {c : RecoveryCase} (hrow : db.recoveryCases.get? caseId = some c)
    (hchain : Chain .discovered (db.trail caseId) c.status) :
    OutcomesFinal rendering db caseId ↔ ∀ change ∈ db.trail caseId, change.1 ≠ .failed := by
  constructor
  · intro h change hchange hfailed
    obtain ⟨l, l', hsplit⟩ := List.append_of_mem hchange
    -- what leaves FAILED comes right after what has reached it
    rw [hsplit] at hchain
    obtain ⟨m, hl, hsource, -, -⟩ := hchain.exists_of_append
    rw [← hsource, hfailed] at hl
    obtain ⟨front, source, rfl⟩ := hl.exists_last (by decide)
    rw [trail_eq, List.append_assoc, List.singleton_append] at hsplit
    obtain ⟨before, after, hevents, -, hafter⟩ := List.filterMap_eq_append_iff.mp hsplit
    obtain ⟨between, event, back, rfl, -, hevent, hback⟩ := List.filterMap_eq_cons_iff.mp hafter
    obtain ⟨row, hrow', houtcome⟩ := event.rowFor_stored rendering
    have hfinal : event.outcome = "failed" := by
      rw [AuditEvent.outcome, hevent]
      rfl
    rw [← List.append_assoc] at hevents
    obtain ⟨-, -, hquiet, -⟩ := h.final (before ++ between) event back row hevents hrow' (by
      rw [houtcome, hfinal]
      simp)
    rw [List.filterMap_eq_nil_iff.mpr hquiet] at hback
    cases hback
  · intro h
    refine ⟨fun event _ => ?_, fun front event back row hsplit hrow' houtcome => ?_⟩
    · obtain ⟨row, hrow', -⟩ := event.rowFor_stored rendering
      exact ⟨row, hrow'⟩
    · rw [AuditEvent.finalOutcome_of_rowFor hrow'] at houtcome ⊢
      obtain ⟨source, target, hchange, hmem, heq⟩ :=
        AuditEvent.exists_change_of_outcome fun hempty => houtcome (by rw [hempty])
      -- the trail, cut at the event
      have htrail : db.trail caseId = front.filterMap AuditEvent.change? ++
          (source, target) :: back.filterMap AuditEvent.change? := by
        rw [trail_eq, hsplit, List.filterMap_append, List.filterMap_cons_some hchange]
      rw [htrail] at hchain h
      obtain ⟨hback, hstatus⟩ := hchain.ends_of_outcome hmem fun change hin =>
        h change (List.mem_append_right _ (List.mem_cons_of_mem _ hin))
      have hquiet : ∀ other ∈ back, other.change? = none := List.filterMap_eq_nil_iff.mp hback
      refine ⟨?_, by rw [hchange]; rfl, hquiet, target, ?_, by rw [heq]⟩
      · intro other hother row' hrow''
        rw [AuditEvent.finalOutcome_of_rowFor hrow'']
        by_contra hother'
        obtain ⟨source', target', hchange', hmem', -⟩ :=
          AuditEvent.exists_change_of_outcome fun hempty => hother' (by rw [hempty])
        obtain hfront | hback' := List.mem_append.mp hother
        · -- what comes before an outcome is followed by its change
          obtain ⟨l, l', rfl⟩ := List.append_of_mem hfront
          rw [List.filterMap_append, List.filterMap_cons_some hchange', List.append_assoc,
            List.cons_append] at hchain h
          have hnil := (hchain.ends_of_outcome hmem' fun change hin =>
            h change (List.mem_append_right _ (List.mem_cons_of_mem _ hin))).1
          simp at hnil
        · rw [hquiet other hback'] at hchange'
          cases hchange'
      · rw [Db.statusOf, hrow, ← hstatus]
        rfl

/-- What the trail has, some transaction has committed. -/
theorem mem_trail_replay {H : History} {change : RecoveryCaseStatus × RecoveryCaseStatus} :
    change ∈ (History.replay H).trail caseId ↔
      ∃ t sts, (t, Event.committed sts) ∈ H ∧ change ∈ changesOf caseId sts := by
  induction H with
  | nil => exact iff_of_false (fun h => absurd h List.not_mem_nil) fun ⟨_, _, h, _⟩ => by cases h
  | cons p H ih =>
    obtain ⟨t, e⟩ := p
    by_cases he : ∃ sts, e = .committed sts
    · obtain ⟨sts, rfl⟩ := he
      rw [History.replay_cons, Event.applyTo_committed, trail_applyAll, List.mem_append, ih]
      constructor
      · rintro (⟨u, sts', hmem, hchange⟩ | hchange)
        · exact ⟨u, sts', List.mem_cons_of_mem _ hmem, hchange⟩
        · exact ⟨t, sts, List.mem_cons_self, hchange⟩
      · rintro ⟨u, sts', hmem, hchange⟩
        obtain heq | hmem := List.mem_cons.mp hmem
        · cases heq
          exact .inr hchange
        · exact .inl ⟨u, sts', hmem, hchange⟩
    · have hne : ∀ sts, e ≠ .committed sts := fun sts h => he ⟨sts, h⟩
      rw [History.replay_cons, Event.applyTo_of_ne hne, ih]
      constructor
      · rintro ⟨u, sts, hmem, hchange⟩
        exact ⟨u, sts, List.mem_cons_of_mem _ hmem, hchange⟩
      · rintro ⟨u, sts, hmem, hchange⟩
        obtain heq | hmem := List.mem_cons.mp hmem
        · cases heq
          exact absurd rfl (hne sts)
        · exact ⟨u, sts, hmem, hchange⟩

/-- **Exported outcomes over runs.** In every reachable state, whatever the interleaving, the
outcomes of a case are final exactly when no transaction of the run has taken the case on
from FAILED. -/
theorem outcomesFinal_iff_of_reachable {w : World} (hw : Reachable w) {c : RecoveryCase}
    (hc : c ∈ w.shared.db.recoveryCases) (rendering : Rendering) :
    OutcomesFinal rendering w.shared.db c.id ↔
      ∀ t sts, (t, Event.committed sts) ∈ w.shared.history →
        ∀ target, (.failed, target) ∉ changesOf c.id sts := by
  have hchain := trail_of_reachable hw hc
  rw [Reachable.db_eq hw] at hc hchain ⊢
  have hrow : (History.replay w.shared.history).recoveryCases.get? c.id = some c :=
    (Reachable.lawful hw).distinct.caseId.get?_of_mem hc
  rw [Chain.outcomesFinal_iff hrow hchain]
  constructor
  · intro h t sts hmem target hchange
    exact h _ (mem_trail_replay.mpr ⟨t, sts, hmem, hchange⟩) rfl
  · rintro h ⟨source, target⟩ hchange rfl
    obtain ⟨t, sts, hmem, hchange⟩ := mem_trail_replay.mp hchange
    exact h t sts hmem target hchange

end Outcomes

namespace Sample

/-- Times and measurements of no interest. -/
def rendering : Rendering := ⟨fun _ => "", fun _ => 0, fun _ => .nan⟩

/-- The link expires, which fails the case. -/
def failed : List Action :=
  executed ++ alone 3 (.webhook (event "k" "L" "expired" none) "c") (deliver ++ settle)

end Sample

set_option maxRecDepth 10000 in
/-- A case that has failed, and has not been taken up again. -/
theorem outcomesFinal_failed : ∃ c ∈ (World.empty.after Sample.failed).shared.db.recoveryCases,
    c.status = .failed ∧
      OutcomesFinal Sample.rendering (World.empty.after Sample.failed).shared.db c.id := by
  have hw := World.reachable_after Sample.failed
  have hex : ∃ c ∈ (World.empty.after Sample.failed).shared.db.recoveryCases, c.status = .failed ∧
      ∀ change ∈ (World.empty.after Sample.failed).shared.db.trail c.id, change.1 ≠ .failed := by
    decide +kernel
  obtain ⟨c, hc, hstatus, htrail⟩ := hex
  refine ⟨c, hc, hstatus, (outcomesFinal_iff_of_reachable hw hc Sample.rendering).mpr ?_⟩
  intro t sts hmem target hchange
  rw [Reachable.db_eq hw] at htrail
  exact htrail _ (mem_trail_replay.mpr ⟨t, sts, hmem, hchange⟩) rfl

set_option maxRecDepth 10000 in
/-- A case that has failed and is being executed again is still exported as failed. -/
theorem expired_notFinal : Reachable (World.empty.after Sample.expired) ∧
    ∃ c ∈ (World.empty.after Sample.expired).shared.db.recoveryCases, c.status = .executing ∧
      ¬ OutcomesFinal Sample.rendering (World.empty.after Sample.expired).shared.db c.id := by
  have hw := World.reachable_after Sample.expired
  have hex : ∃ c ∈ (World.empty.after Sample.expired).shared.db.recoveryCases,
      c.status = .executing ∧
      ∃ change ∈ (World.empty.after Sample.expired).shared.db.trail c.id, change.1 = .failed := by
    decide +kernel
  obtain ⟨c, hc, hstatus, change, hchange, hfailed⟩ := hex
  refine ⟨hw, c, hc, hstatus, fun h => ?_⟩
  have hrow : (World.empty.after Sample.expired).shared.db.recoveryCases.get? c.id = some c := by
    rw [Reachable.db_eq hw] at hc ⊢
    exact (Reachable.lawful hw).distinct.caseId.get?_of_mem hc
  exact (Chain.outcomesFinal_iff hrow (trail_of_reachable hw hc)).mp h change hchange hfailed

end RecoverAI
