import RecoverAI.Protocol.Rules

/-!
# One bad case

A recovery cycle handles its cases one after the other, in one session. What it promises is that
a case that raises is reported and the others are handled all the same (`Isolates`). What its
record shows when that fails is that something was raised which no handler catches (`Doomed`).

Nothing is assumed of the remote parties: in a record of the open machine, the session may go on
with statements of a case that has failed before.
-/

namespace RecoverAI

/-! ### What no handler catches -/

/-- Neither the guard of a step nor the handler of a cycle catches it. A stale version is caught
by the guard, and raised again as a domain error. -/
def Raised.escapes : Raised → Bool
  | .recoverAI _ => false
  | .staleData => false
  | _ => true

namespace Event

/-- The settings that were read. -/
def settings? : Event → Option Settings
  | .configured settings => some settings
  | _ => none

/-- A transaction notes an attempt. -/
def notes : Event → Bool
  | .committed sts => sts.any fun st => st.attemptInsert?.isSome
  | _ => false

end Event

/-- The expiry of a link, computed from the time read right after the attempt was noted, lies
beyond `datetime.max`. -/
def overflows (now : Time) (h : List Event) : Bool :=
  -- The settings in force are the ones read last.
  h.head?.any Event.notes && (h.findSome? Event.settings?).any fun settings =>
    now + settings.recoveryPaymentLinkExpiryHours * microsecondsPerHour > datetimeMax

/-- **After the event, in the record `h`, an exception leaves the cycle**: the AI or the provider
raises what is neither a domain error nor a stale version, a unique value was taken, the expiry of
a link is out of range, or an approved case has no action. -/
def Event.unhandled (h : List Event) : Event → Bool
  | .recommended _ (.error e) => e.escapes
  | .created _ _ _ (.error (.other e)) => e.escapes
  | .found _ (.error (.other e)) => e.escapes
  | .refused _ .integrity => true
  | .clock now => overflows now h
  -- The service reads the action without a check, and the exception of a missing one is no domain
  -- error.
  | .selected (.caseForExecution _) (some loaded) =>
    loaded.recoveryCase.status = .approved ∧ loaded.recoveryCase.recommendedAction = none
  | _ => false

/-- Some event of the record is unhandled. -/
def Doomed : List Event → Bool
  | [] => false
  | e :: h => e.unhandled h || Doomed h

/-! ### What was selected, and what has failed -/

/-- The transaction brings a step of the case to its end: a diagnosis to a status that is not on
its way, an execution to a recorded link or to a person. -/
def Finishes (caseId : Uuid) (sts : List Stmt) : CycleStep → Prop
  | .diagnosis => ∃ before after, .updateCase before after ∈ sts ∧ before.id = caseId ∧
      after.status ∈ [.ineligible, .approved, .stopped, .escalated]
  | .execution => (∃ l, .insertPaymentRequest l ∈ sts ∧ l.recoveryCaseId = caseId) ∨
      ∃ before after, .updateCase before after ∈ sts ∧ before.id = caseId ∧ after.status = .escalated

/-- A step of a case went through. -/
def Concluded (step : CycleStep) (caseId : Uuid) (h : List Event) : Prop :=
  ∃ sts, .committed sts ∈ h ∧ Finishes caseId sts step

/-- The event neither begins a step nor selects cases by their status. -/
structure Event.Plain (e : Event) : Prop where
  begins : e.begins? = none
  statusRead : e.statusRead? = none

/-- Every step of the case that was begun in a segment went through, and was not begun
again. -/
def AllThrough (caseId : Uuid) (segment : List Event) : Prop :=
  ∀ (step : CycleStep) (newer older : List Event) (e : Event), segment = newer ++ e :: older →
    e.begins? = some (step, caseId) →
    Concluded step caseId newer ∧ ∀ e' ∈ newer, e'.begins? ≠ some (step, caseId)

/-- What a cycle has done with one case, whatever was left in its session. -/
structure Treats (o : CycleCaseOutcome) (segment : List Event) : Prop where
  statusRead : ∀ e ∈ segment, e.statusRead? = none
  begins : ∀ e ∈ segment, ∀ step id, e.begins? = some (step, id) → id = o.recoveryCaseId
  /-- Without an error, what was begun went through. -/
  steps : o.error = none → AllThrough o.recoveryCaseId segment

namespace AllThrough

variable {caseId : Uuid} {step : CycleStep} {segment segment' : List Event}

/-- A segment in which nothing begins. -/
theorem of_plain (h : ∀ e ∈ segment, e.Plain) : AllThrough caseId segment := by
  intro step newer older e hsplit hbegins
  -- The event that begins the step would be one of the segment.
  have he : e ∈ segment := by rw [hsplit]; exact List.mem_append_right _ List.mem_cons_self
  rw [(h e he).begins] at hbegins
  cases hbegins

/-- Two segments, the later of which begins other steps. -/
theorem append {later earlier : List Event} (hlater : AllThrough caseId later)
    (hearlier : AllThrough caseId earlier)
    (hother : ∀ e ∈ later, ∀ e' ∈ earlier, ∀ step, e.begins? = some (step, caseId) →
      e'.begins? ≠ some (step, caseId)) : AllThrough caseId (later ++ earlier) := by
  intro step newer older e heq he
  rw [List.append_eq_append_iff] at heq
  -- The cut lies in the earlier segment, or in the later one.
  obtain ⟨rest, rfl, hrest⟩ | ⟨rest, rfl, hrest⟩ := heq
  · obtain ⟨⟨sts, hmem, hfinishes⟩, hnone⟩ := hearlier step rest older e hrest he
    -- The later segment has the transaction at hand too, and does not begin the step again.
    refine ⟨⟨sts, List.mem_append_right _ hmem, hfinishes⟩, fun e' he' hb => ?_⟩
    rcases List.mem_append.mp he' with he' | he'
    · exact hother e' he' e (by rw [hrest]; simp) step hb he
    · exact hnone e' he' hb
  · cases rest with
    | nil =>
      -- a step that begins last has not gone through
      rw [List.nil_append] at hrest
      obtain ⟨⟨sts, hmem, -⟩, -⟩ := hearlier step [] older e hrest.symm he
      cases hmem
    | cons e' rest =>
      obtain ⟨rfl, -⟩ := List.cons.inj hrest
      -- The step begins within the later segment, which has concluded it by itself.
      exact hlater step newer rest e rfl he

end AllThrough

end RecoverAI
