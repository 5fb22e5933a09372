import RecoverAI.Protocol.Isolation
import RecoverAI.Refinement.Accounts
import RecoverAI.Refinement.Orchestrator

/-!
# A cycle isolates what it catches

The services of a cycle are followed once more, now with remote parties that raise anything: an
account of each says which part of the record it leaves when it returns and when it raises. What
is kept on the way is small (`Inside`): no step begins inside another, nothing unhandled has
happened, and no attempt is in the session that its next commit could note. An exception then
leaves a record that is doomed exactly if no handler catches it (`Left`).
-/

namespace RecoverAI

open Interleave Service

variable {t : Tid} {d : Bool} {h h₀ h₁ : List Event} {p : List Stmt} {e : Event} {x : Raised}
  {caseId : Uuid} {correlationId : String} {step : CycleStep}

/-! ### Inside a step -/

/-- The record has grown from `h₀` to `h` without a step that begins. It is doomed as `d` says, a
time read now is not that of an expiry, and the session has no attempt to note. -/
structure Inside (d : Bool) (h₀ h : List Event) (p : List Stmt) : Prop where
  adds : Adds Event.Plain h₀ h
  doomed : Doomed h = d
  unnoted : h.head?.any Event.notes = false
  pending : ∀ st ∈ p, st.attemptInsert? = none

/-- What an exception has left: a record that is doomed if nobody catches it. -/
structure Left (h₀ : List Event) (x : Raised) (h : List Event) (p : List Stmt) : Prop where
  adds : Adds Event.Plain h₀ h
  doomed : Doomed h = x.escapes
  pending : ∀ st ∈ p, st.attemptInsert? = none

/-- What a step that went through has left: its last event is the transaction that finishes it. -/
structure Through (step : CycleStep) (caseId : Uuid) (h₀ h : List Event) (p : List Stmt) : Prop
    extends Inside false h₀ h p where
  last : ∃ sts older, h = .committed sts :: older ∧ h₀ <:+ older ∧ Finishes caseId sts step

namespace Inside

/-- What comes next is counted from here. -/
theorem here (hin : Inside d h₀ h p) : Inside d h h p := { hin with adds := .refl h }

/-- One more event, which is handled and notes no attempt. -/
theorem cons (hin : Inside d h₀ h p) (hplain : e.Plain) (hhandled : e.unhandled h = false)
    (hnotes : e.notes = false) : Inside d h₀ (e :: h) p where
  adds := hin.adds.cons hplain
  doomed := by rw [Doomed, hhandled, Bool.false_or, hin.doomed]
  unnoted := hnotes
  pending := hin.pending

/-- The clock is read. -/
theorem clock (hin : Inside d h₀ h p) (now : Time) : Inside d h₀ (.clock now :: h) p :=
  -- The reading does not follow the note of an attempt, so no expiry is computed from it.
  hin.cons ⟨rfl, rfl⟩ (by rw [Event.unhandled, overflows, hin.unnoted, Bool.false_and]) rfl

/-- A flush without an attempt. -/
theorem flushed (hin : Inside d h₀ h p) {sts : List Stmt}
    (hsts : ∀ st ∈ sts, st.attemptInsert? = none) : Inside d h₀ h (p ++ sts) :=
  { hin with pending := fun st hst => (List.mem_append.mp hst).elim (hin.pending st) (hsts st) }

/-- The commit of what is pending. -/
theorem committed (hin : Inside d h₀ h p) : Inside d h₀ (.committed p :: h) [] where
  adds := hin.adds.cons ⟨rfl, rfl⟩
  doomed := hin.doomed
  -- The transaction notes no attempt, and a reading after it is that of no expiry.
  unnoted := by
    refine List.any_eq_false.mpr fun st hst => ?_
    rw [hin.pending st hst]
    exact Bool.false_ne_true
  pending := fun _ hst => absurd hst List.not_mem_nil

/-- The commit that finishes a step. -/
theorem through (hin : Inside false h₀ h p) (hs : Finishes caseId p step) :
    Through step caseId h₀ (.committed p :: h) [] where
  toInside := hin.committed
  last := by
    obtain ⟨added, rfl, -⟩ := hin.adds
    exact ⟨p, _, rfl, List.suffix_append _ _, hs⟩

/-- What is raised here. -/
theorem left (hin : Inside d h₀ h p) (hd : d = x.escapes) : Left h₀ x h p :=
  ⟨hin.adds, hin.doomed.trans hd, hin.pending⟩

/-- What is raised with an event. -/
theorem raised (hin : Inside false h₀ h p) (hplain : e.Plain)
    (hraised : e.unhandled h = x.escapes) : Left h₀ x (e :: h) p :=
  ⟨hin.adds.cons hplain, by rw [Doomed, hraised, hin.doomed, Bool.or_false], hin.pending⟩

/-- A failed flush, whose exception the guard catches if it is a stale version. -/
theorem refused (hin : Inside false h₀ h p) (sts : List Stmt) (error : DbError) :
    Left h₀ error.raised (.refused sts error :: h) [] where
  adds := hin.adds.cons ⟨rfl, rfl⟩
  -- A stale version is caught by the guard; a taken value is caught by nobody.
  doomed := by cases error <;> simp [Doomed, Event.unhandled, hin.doomed, DbError.raised, Raised.escapes]
  pending := fun _ hst => absurd hst List.not_mem_nil

end Inside

/-! ### Parts of the services -/

section Parts

variable {E : Raised → List Event → List Stmt → Prop}

end Parts

/-! ### Diagnosis -/

/-- Since the record `h`, a cycle has treated a case, and may go on with the next. -/
structure Treated (caseId : Uuid) (h : List Event) (o : CycleCaseOutcome) (h' : List Event)
    (p' : List Stmt) : Prop where
  inside : Inside false h' h' p'
  segment : ∃ segment, h' = segment ++ h ∧ Treats o segment
  caseId : o.recoveryCaseId = caseId

/-- What a cycle has done with a case before its execution. -/
structure Earlier (caseId : Uuid) (before : List Event) : Prop where
  statusRead : ∀ e ∈ before, e.statusRead? = none
  begins : ∀ e ∈ before, ∀ step id, e.begins? = some (step, id) → step = .diagnosis ∧ id = caseId
  through : AllThrough caseId before

/-- Nothing has been done with the case. -/
theorem Earlier.nil : Earlier caseId [] where
  statusRead := fun _ he => absurd he List.not_mem_nil
  begins := fun _ he => absurd he List.not_mem_nil
  through := .of_plain fun _ he => absurd he List.not_mem_nil

/-- Since the record `h`, a cycle has treated the cases of the outcomes. -/
structure TreatedAll (caseIds : List Uuid) (h : List Event) (os : List CycleCaseOutcome)
    (h' : List Event) (p' : List Stmt) : Prop where
  inside : Inside false h' h' p'
  segments : ∃ segments : List (List Event), h' = segments.reverse.flatten ++ h ∧
    List.Forall₂ Treats os segments
  caseIds : os.map CycleCaseOutcome.recoveryCaseId = caseIds

namespace TreatedAll

/-- No case is treated. -/
theorem nil (hin : Inside false h h p) : TreatedAll [] h [] h p := ⟨hin, ⟨[], rfl, .nil⟩, rfl⟩

/-- One case, and the rest. -/
theorem cons {o : CycleCaseOutcome} {os : List CycleCaseOutcome} {caseIds : List Uuid}
    {h' h'' : List Event} {p' p'' : List Stmt} (ho : Treated caseId h o h' p')
    (hos : TreatedAll caseIds h' os h'' p'') :
    TreatedAll (caseId :: caseIds) h (o :: os) h'' p'' := by
  obtain ⟨segment, rfl, htreats⟩ := ho.segment
  obtain ⟨segments, hrec, hall⟩ := hos.segments
  refine ⟨hos.inside, ⟨segment :: segments, ?_, .cons htreats hall⟩, ?_⟩
  · rw [hrec, flatten_reverse_cons_append]
  · rw [List.map_cons, ho.caseId, hos.caseIds]

end TreatedAll

/-- Cases are selected by their status. -/
theorem Inside.read (hin : Inside false h h p) (r : StatusRead) :
    Inside false (r.event :: h) (r.event :: h) p where
  adds := .refl _
  doomed := by rw [Doomed, hin.doomed]; rfl
  unnoted := rfl
  pending := hin.pending

end RecoverAI
