import RecoverAI.Services.Orchestrator
import RecoverAI.Services.Webhook

/-!
# The system

The machine whose threads are the operations of the application: requests of the
API, deliveries of the provider, and recovery cycles, each in a session of its own
and interleaved at every command. An operation that ends, or is killed, leaves its
open transaction rolled back.
-/

namespace RecoverAI

open Interleave

/-- The service behind an operation. -/
def Op.service : Op → Service Response
  | .ingest request correlationId =>
    .paymentIngested <$> ingestPayment request correlationId
  | .createCase paymentId correlationId =>
    .recoveryCaseCreated <$> createRecoveryCaseForPayment paymentId correlationId
  | .discover limit correlationId =>
    .discovered <$> discoverFailedPayments limit correlationId
  | .diagnose caseId correlationId => .diagnosed <$> diagnoseRecoveryCase caseId correlationId none
  | .execute caseId correlationId => .executed <$> executeRecoveryCase caseId correlationId
  | .webhook event correlationId => .webhookProcessed <$> processWebhookEvent event correlationId
  | .cycle budget correlationId => .cycled <$> runRecoveryCycle budget correlationId

/-- The machine of the application, whatever the remote parties raise. -/
def openMachine : Machine sig Op State Input Outcome where
  body := fun op => op.service.run
  start := fun t op s => s.emit t (.started op)
  exec := exec
  close := fun t outcome s => (s.withTxns (s.toTxns.rollback t)).emit t (.ended outcome)

/-- The machine of the application under the assumption that nothing spills from the failure
of one case of a cycle into the rest of it (`State.spills`). -/
def machine : Machine sig Op State Input Outcome where
  body := openMachine.body
  start := openMachine.start
  exec := fun t c i s => if s.spills t i then none else exec t c i s
  close := openMachine.close

/-- A global state of the application. -/
abbrev World := Interleave.World sig Op State Outcome

/-- One decision of the scheduler and the environment. -/
abbrev Action := Interleave.Action Op Input

/-- The empty database, with nothing started. -/
def World.empty : World := Interleave.World.init State.initial

/-- A state some run from the empty database leads to. -/
abbrev Reachable (w : World) : Prop := machine.Reaches World.empty w

/-! ### The assumption -/

section Spills

variable {s s' : State} {t : Tid} {c : Cmd} {i : Input} {r : c.Reply}

/-- A step of the machine is one of the open machine in which nothing spills. -/
theorem machine_exec_eq_some : machine.exec t c i s = some (r, s') ↔
    exec t c i s = some (r, s') ∧ s.spills t i = false := by
  change (if s.spills t i then none else exec t c i s) = _ ↔ _
  cases s.spills t i <;> simp

/-- Only a domain error of a remote party spills. -/
theorem State.spills_eq_false (h : i.raisesRecoverAI = false) : s.spills t i = false := by
  rw [State.spills, h, Bool.false_and, Bool.false_and]

theorem machine_exec_of (he : exec t c i s = some (r, s')) (hi : i.raisesRecoverAI = false) :
    machine.exec t c i s = some (r, s') :=
  machine_exec_eq_some.mpr ⟨he, State.spills_eq_false hi⟩

end Spills

/-- Nothing spills in the step. -/
def Contained (w : World) : Action → Prop
  | .run t i => w.shared.spills t i = false
  | _ => True

instance (w : World) (a : Action) : Decidable (Contained w a) := by
  unfold Contained
  split <;> infer_instance

/-- Where nothing spills, the two machines take the same steps. -/
theorem step_of_contained {w w' : World} {a : Action} (ha : Contained w a)
    (h : openMachine.step w a = some w') : machine.step w a = some w' := by
  cases a with
  | run t i =>
    have hspills : w.shared.spills t i = false := ha
    have hexec : ∀ c, machine.exec t c i w.shared = openMachine.exec t c i w.shared := by
      intro c
      change (if w.shared.spills t i then none else exec t c i w.shared) = _
      rw [hspills]
      rfl
    simp only [Machine.step, hexec] at h ⊢
    exact h
  | _ => exact h

/-- Every step of the machine is one of the open machine. -/
theorem open_of_step {w w' : World} {a : Action} (h : machine.step w a = some w') :
    openMachine.step w a = some w' := by
  cases a with
  | run t i =>
    obtain ⟨op, ha, -⟩ | ⟨u, j, op, c, k, r, s, ha, ht, he, rfl⟩ | ⟨u, op, r, ha, -⟩ |
      ⟨u, op, p, ha, -⟩ := Machine.step_cases h <;> try cases ha
    have hexec : openMachine.exec t c i w.shared = some (r, s) := (machine_exec_eq_some.mp he).1
    simp only [Machine.step, ht, hexec]
  | _ => exact h

/-- Every state of a run of the machine is one of a run of the open machine. -/
theorem Reachable.opened {w : World} (hw : Reachable w) : openMachine.Reaches World.empty w := by
  induction hw with
  | refl => exact .refl
  | tail _ hstep ih =>
    obtain ⟨a, -, hstep⟩ := hstep
    exact ih.trans (.of_step (open_of_step hstep))

theorem Reachable.of_contained {w : World}
    (h : openMachine.ReachesVia Contained World.empty w) : Reachable w := by
  induction h with
  | refl => exact .refl
  | tail _ hstep ih =>
    obtain ⟨a, ha, hstep⟩ := hstep
    exact ih.trans (.of_step (step_of_contained ha hstep))

end RecoverAI
