import RecoverAI.Refinement.Correlation
import RecoverAI.Runs.Schedules
import RecoverAI.Services.Requests

/-!
# Correlation ids and their columns

The middleware bounds the id of a caller by the width of the columns it is written to,
so whatever an operation records under its own id fits. A cycle appends the 37 characters
of a colon and a UUID for each case it takes up. Exactly the ids of at most 91 characters
have room for them.
-/

namespace RecoverAI

open Interleave

/-- `String(128)`, the type of `AuditEvent.correlation_id` and of
`RecoveryAttempt.correlation_id`. -/
def correlationIdWidth : Nat := 128

/-- What a statement writes as a correlation id fits its column. -/
def Stmt.FitsColumn (st : Stmt) : Prop :=
  ∀ id, st.correlationId? = some id → id.length ≤ correlationIdWidth

/-- The statements an event shows to have been flushed. -/
def Event.flushed : Event → List Stmt
  | .committed statements => statements
  | .refused statements _ => statements
  | _ => []

/-- Thread `t` has flushed the statement: it waits for its commit, or the record shows that
it was committed or refused. -/
inductive State.Written (s : State) (t : Tid) (st : Stmt) : Prop
  | pending (mem : (t, st) ∈ s.pending)
  | recorded (e : Event) (event : (t, e) ∈ s.history) (mem : st ∈ e.flushed)

/-! ### Every statement of a run is recorded under an id of its operation -/

/-- What a command adds to the statements written is what it flushes. -/
theorem written_of_exec {s s' : State} {t u : Tid} {c : Cmd} {i : Input} {r : c.Reply} {st : Stmt}
    (he : exec t c i s = some (r, s')) (h : s'.Written u st) :
    s.Written u st ∨ u = t ∧ ∃ sts, c = .flush sts ∧ st ∈ sts := by
  rcases h with hmem | ⟨e, hmem, hst⟩
  · rcases pending_of_exec he hmem with hmem | ⟨sts, rfl, rfl, hst⟩
    · exact .inl (.pending hmem)
    · exact .inr ⟨rfl, sts, rfl, hst⟩
  · rcases history_of_exec he with hh | ⟨e', hemits, hh⟩ <;> rw [hh] at hmem
    · exact .inl (.recorded e hmem hst)
    rcases List.mem_cons.mp hmem with hp | hmem
    · obtain ⟨rfl, rfl⟩ := Prod.mk.inj hp
      cases hemits with
      | refused sts error failed => exact .inr ⟨rfl, sts, rfl, hst⟩
      | committed => exact .inl (.pending (Txns.mem_pendingOf.mp hst))
      | _ => cases hst
    · exact .inl (.recorded e hmem hst)

/-- The statements written are of operations that have been started, each under one of
their ids. -/
structure Attributed (ops : List Op) (s : State) : Prop where
  started : ∀ t op, (t, .started op) ∈ s.history → ops[t]? = some op
  written : ∀ t st, s.Written t st → ∃ op, ops[t]? = some op ∧ st.RecordedUnder op.Records

namespace Attributed

variable {ops : List Op} {s s' : State} {t : Tid}

theorem initial : Attributed [] State.initial where
  started := fun _ _ h => absurd h List.not_mem_nil
  written := by
    rintro t st (hmem | ⟨e, hmem, -⟩) <;> exact absurd hmem List.not_mem_nil

/-- A thread that is started leaves the others their operations. -/
private theorem getElem?_concat {op op' : Op} (h : ops[t]? = some op) :
    (ops ++ [op'])[t]? = some op := by
  rw [List.getElem?_append_left (List.getElem?_eq_some_iff.mp h).1, h]

/-- A new operation has written nothing. -/
theorem start (h : Attributed ops s) (op : Op) :
    Attributed (ops ++ [op]) (s.emit ops.length (.started op)) where
  started := by
    intro t op' hst
    rcases List.mem_cons.mp hst with hp | hst
    · obtain ⟨rfl, he⟩ := Prod.mk.inj hp
      obtain rfl := Event.started.inj he
      exact List.getElem?_concat_length
    · exact getElem?_concat (h.started t op' hst)
  written := by
    rintro t st (hmem | ⟨e, hmem, hst⟩)
    · obtain ⟨op', hop, hrecorded⟩ := h.written t st (.pending hmem)
      exact ⟨op', getElem?_concat hop, hrecorded⟩
    · rcases List.mem_cons.mp hmem with hp | hmem
      · obtain ⟨-, rfl⟩ := Prod.mk.inj hp
        cases hst
      · obtain ⟨op', hop, hrecorded⟩ := h.written t st (.recorded e hmem hst)
        exact ⟨op', getElem?_concat hop, hrecorded⟩

/-- A command of an operation writes under the ids of that operation. -/
theorem exec {op : Op} {c : Cmd} {i : Input} {r : c.Reply} (h : Attributed ops s)
    (hop : ops[t]? = some op) (hc : c.Writes (Stmt.RecordedUnder op.Records))
    (he : RecoverAI.exec t c i s = some (r, s')) : Attributed ops s' where
  started := by
    intro u op' hst
    rcases history_of_exec he with hh | ⟨e, hemits, hh⟩ <;> rw [hh] at hst
    · exact h.started u op' hst
    · rcases List.mem_cons.mp hst with hp | hst
      · obtain ⟨-, rfl⟩ := Prod.mk.inj hp
        cases hemits
      · exact h.started u op' hst
  written := by
    intro u st hwritten
    rcases written_of_exec he hwritten with hwritten | ⟨rfl, sts, rfl, hst⟩
    · exact h.written u st hwritten
    · exact ⟨op, hop, hc st hst⟩

/-- The end of an operation writes nothing. -/
theorem close (h : Attributed ops s) (outcome : Option Outcome) :
    Attributed ops (machine.close t outcome s) where
  started := by
    intro u op hst
    rcases List.mem_cons.mp hst with hp | hst
    · cases (Prod.mk.inj hp).2
    · exact h.started u op hst
  written := by
    rintro u st (hmem | ⟨e, hmem, hst⟩)
    · exact h.written u st (.pending (Txns.mem_others.mp hmem).1)
    · rcases List.mem_cons.mp hmem with hp | hmem
      · obtain ⟨-, rfl⟩ := Prod.mk.inj hp
        cases hst
      · exact h.written u st (.recorded e hmem hst)

end Attributed

theorem Reachable.attributed {w : World} (hw : Reachable w) : Attributed w.ops w.shared :=
  Machine.invariant_of_performs Op.writes_service .initial
    (fun _ op _ h => h.start op)
    (fun _ _ _ _ _ _ _ _ h hop hc he => h.exec hop hc (machine_exec_eq_some.mp he).1)
    (fun _ _ outcome _ h => h.close outcome) hw

/-- **An operation records under its own ids**, in every run. -/
theorem recordedUnder_of_written {w : World} (hw : Reachable w) {t : Tid} {op : Op} {st : Stmt}
    (hst : (t, .started op) ∈ w.shared.history) (hwritten : w.shared.Written t st) :
    st.RecordedUnder op.Records := by
  have hattributed := hw.attributed
  obtain ⟨op', hop', hrecorded⟩ := hattributed.written t st hwritten
  obtain rfl : op' = op := Option.some.inj (hop'.symm.trans (hattributed.started t op hst))
  exact hrecorded

/-! ### Lengths -/

theorem length_caseCorrelation (correlationId : String) (caseId : Uuid) :
    (caseCorrelation correlationId caseId).length = correlationId.length + 37 := by
  change (correlationId ++ ":" ++ uuidText caseId).length = _
  rw [String.length_append, String.length_append, length_uuidText]
  rfl

/-- An id with room for a colon and a UUID behind it. -/
def HasRoom (correlationId : String) : Prop := correlationId.length + 37 ≤ correlationIdWidth

instance (correlationId : String) : Decidable (HasRoom correlationId) :=
  inferInstanceAs (Decidable (_ ≤ _))

namespace Request

variable {request : Request} {header : Option String} {fresh fresh' : Uuid}

/-- The request starts a recovery cycle. -/
def isCycle : Request → Bool
  | .runCycle _ _ => true
  | _ => false

/-- Every operation behind the middleware runs under the id that the middleware chose. -/
theorem correlationId_op : (request.op header fresh fresh').correlationId =
    safeCorrelationId header fresh := by
  cases request with
  | receiveRazorpayWebhook payload eventId =>
    change (truthy (some (safeCorrelationId header fresh))).getD _ = _
    rw [truthy_safeCorrelationId, Option.getD_some]
  | _ => exact correlationIdOr_safeCorrelationId header fresh fresh'

theorem isCycle_op : (request.op header fresh fresh').isCycle = request.isCycle := by
  cases request <;> rfl

/-- What an operation records fits, if the id of a cycle has room for its cases. -/
theorem length_of_records (hroom : request.isCycle → HasRoom (safeCorrelationId header fresh))
    {id : String} (h : (request.op header fresh fresh').Records id) :
    id.length ≤ correlationIdWidth := by
  rcases h with rfl | ⟨hcycle, caseId, rfl⟩
  · rw [correlationId_op]
    exact length_safeCorrelationId header fresh
  · rw [correlationId_op, length_caseCorrelation]
    exact hroom (isCycle_op ▸ hcycle)

end Request

/-! ### Every cycle may take up a case -/

namespace Sample

/-- One case in DISCOVERED. -/
def oneDiscovered : List Action := alone 0 (.ingest request "c") (ingest 1 2 3)

/-- A cycle up to the first event of the case; it selects cases `selects` times. -/
def takeUp (budget : CycleBudget) (correlationId : String) (selects : Nat) : List Action :=
  oneDiscovered ++ .start (.cycle budget correlationId) ::
    part 1 ([.uuid 0, .time 0, .ranking [], .ranking [], .go] ++
      List.replicate selects (.ranking []) ++ [.ranking []] ++ audit)

/-- The event it flushes. -/
def takenUp (correlationId : String) : Stmt :=
  .insertAuditEvent {
    entity := .recoveryCase 3
    body := .diagnosisRequested .discovered
    actorType := .system
    correlationId := some (caseCorrelation correlationId 3)
    createdAt := 0 }

end Sample

section TakeUp

variable (autoExecute : Bool) (discover diagnose execute : Nat) (correlationId : String)

/-- A cycle that may diagnose one case stops looking once it has found it. -/
theorem pending_takeUp_one :
    (World.empty.after (Sample.takeUp ⟨autoExecute, discover + 1, 1, execute⟩ correlationId
      1)).shared.pending = [(1, Sample.takenUp correlationId)] := by
  rfl

/-- One that may diagnose more looks for cases in the other two statuses as well. -/
theorem pending_takeUp_more :
    (World.empty.after (Sample.takeUp ⟨autoExecute, discover + 1, diagnose + 2, execute⟩
      correlationId 3)).shared.pending = [(1, Sample.takenUp correlationId)] := by
  rfl

end TakeUp

theorem exists_pending_takeUp (budget : CycleBudget) (hdiscover : 1 ≤ budget.maxDiscover)
    (hdiagnose : 1 ≤ budget.maxDiagnose) (correlationId : String) :
    ∃ selects, (World.empty.after (Sample.takeUp budget correlationId selects)).shared.pending =
      [(1, Sample.takenUp correlationId)] := by
  obtain ⟨autoExecute, discover, diagnose, execute⟩ := budget
  obtain ⟨discover, rfl⟩ := Nat.exists_eq_add_of_le' hdiscover
  rcases Nat.eq_or_lt_of_le hdiagnose with hone | hmore
  · obtain rfl : diagnose = 1 := hone.symm
    exact ⟨1, pending_takeUp_one autoExecute discover execute correlationId⟩
  · have hmore : 2 ≤ diagnose := hmore
    obtain ⟨diagnose, rfl⟩ := Nat.exists_eq_add_of_le' hmore
    exact ⟨3, pending_takeUp_more autoExecute discover diagnose execute correlationId⟩

/-- An operation that is started within a schedule is on record at its end. -/
theorem started_mem_of_runs {as bs : List Action} {op : Op} {w : World}
    (h : machine.runs World.empty (as ++ .start op :: bs) = some w) :
    ((World.empty.after as).threads.length, .started op) ∈ w.shared.history := by
  rw [Machine.runs, List.foldlM_append, Option.bind_eq_bind, Option.bind_eq_some_iff] at h
  obtain ⟨w₁, h₁, h⟩ := h
  have hafter : World.empty.after as = w₁ := by
    rw [World.after, Machine.runs, h₁, Option.getD_some]
  have hw₁ : Reachable w₁ := Machine.reaches_of_runs h₁
  set w₂ : World := ⟨w₁.shared.emit w₁.threads.length (.started op),
    w₁.threads ++ [⟨op, some (machine.body op)⟩]⟩ with hw₂
  have hstep : machine.step w₁ (.start op) = some w₂ := rfl
  have hreaches : machine.Reaches w₂ w := Machine.reaches_of_runs h
  rw [hafter]
  exact (extends_of_reaches (hw₁.trans (.of_step hstep)) hreaches).suffix.mem List.mem_cons_self

/-- Whatever the settings, some cycle takes up a case. -/
theorem exists_takenUp (settings : OrchestratorSettings) (autoExecute : Option Bool)
    (correlationId : String) : ∃ w, Reachable w ∧
      (1, .started (.cycle (settings.budget autoExecute) correlationId)) ∈ w.shared.history ∧
      w.shared.Written 1 (Sample.takenUp correlationId) := by
  obtain ⟨selects, hpending⟩ := exists_pending_takeUp (settings.budget autoExecute)
    settings.maxDiscover_ge settings.maxDiagnose_ge correlationId
  rw [World.after] at hpending
  cases hruns : machine.runs World.empty
      (Sample.takeUp (settings.budget autoExecute) correlationId selects) with
  | none =>
    rw [hruns] at hpending
    cases hpending
  | some w =>
    rw [hruns, Option.getD_some] at hpending
    have hlength : (World.empty.after Sample.oneDiscovered).threads.length = 1 := by decide +kernel
    refine ⟨w, Machine.reaches_of_runs hruns, ?_, .pending ?_⟩
    · rw [← hlength]
      exact started_mem_of_runs hruns
    · rw [hpending]
      exact List.mem_singleton_self _

namespace Request

theorem op_runCycle (autoExecute : Option Bool) (settings : OrchestratorSettings)
    (header : Option String) (fresh fresh' : Uuid) :
    (Request.runCycle autoExecute settings).op header fresh fresh' =
      .cycle (settings.budget autoExecute) (safeCorrelationId header fresh) := by
  rw [← correlationIdOr_safeCorrelationId header fresh fresh']
  rfl

/-- Whatever the run, a request writes only correlation ids that fit their columns. -/
def Fits (request : Request) (header : Option String) (fresh fresh' : Uuid) : Prop :=
  ∀ w t st, Reachable w → (t, .started (request.op header fresh fresh')) ∈ w.shared.history →
    w.shared.Written t st → st.FitsColumn

/-- **The correlation ids a request writes fit exactly if** it starts no cycle or the id the
middleware has chosen leaves room for a case. -/
theorem fits_iff (request : Request) (header : Option String) (fresh fresh' : Uuid) :
    request.Fits header fresh fresh' ↔
      (request.isCycle → HasRoom (safeCorrelationId header fresh)) := by
  constructor
  · intro hfits hcycle
    cases request with
    | runCycle autoExecute settings =>
      obtain ⟨w, hw, hst, hwritten⟩ :=
        exists_takenUp settings autoExecute (safeCorrelationId header fresh)
      rw [← op_runCycle autoExecute settings header fresh fresh'] at hst
      have hlength := hfits w 1 _ hw hst hwritten _ rfl
      rwa [length_caseCorrelation] at hlength
    | _ => cases hcycle
  · intro hroom w t st hw hst hwritten id hid
    exact length_of_records hroom (recordedUnder_of_written hw hst hwritten id hid)

end Request

/-! ### A header of 92 characters -/

namespace Sample

/-- A header the middleware accepts, one character too long for a cycle. -/
def longHeader : String := String.ofList (List.replicate 92 'a')

/-- The settings of the recovery loop by default. -/
def orchestratorSettings : OrchestratorSettings where
  orchestratorAutoExecute := false
  orchestratorMaxDiscover := 100
  orchestratorMaxDiagnose := 25
  orchestratorMaxExecute := 10
  maxDiscover_ge := by decide
  maxDiagnose_ge := by decide

end Sample

/-- With this header a cycle writes an id of 129 characters. -/
theorem longHeader_overflows : safeCorrelationId (some Sample.longHeader) 0 = Sample.longHeader ∧
    ¬ ∀ (request : Request) (header : Option String) (fresh fresh' : Uuid),
      request.Fits header fresh fresh' := by
  have hsafe : safeCorrelationId (some Sample.longHeader) 0 = Sample.longHeader := by
    decide +kernel
  refine ⟨hsafe, fun hfits => ?_⟩
  obtain ⟨w, hw, hst, hwritten⟩ :=
    exists_takenUp Sample.orchestratorSettings none Sample.longHeader
  have hop := Request.op_runCycle none Sample.orchestratorSettings (some Sample.longHeader) 0 0
  rw [hsafe] at hop
  rw [← hop] at hst
  have hlength := hfits _ _ _ _ w 1 _ hw hst hwritten _ rfl
  rw [length_caseCorrelation] at hlength
  revert hlength
  decide +kernel

end RecoverAI
