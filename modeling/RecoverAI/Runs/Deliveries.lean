import RecoverAI.Runs.Alone
import RecoverAI.Runs.Cases
import RecoverAI.Runs.Schedules

/-!
# Deliveries in a row

Events about one payment link, delivered one after another. The first one that is handled
finds the case executing and decides what becomes of it; the others find a case that has
moved on, and are recorded on the link only. So the case has the outcome of the first
event, and the link is as the last one reports it (`order_of_deliveries`).
-/

namespace RecoverAI

open Interleave Service

variable {t : Tid} {db : Db} {sts : List Stmt} {us : List Uuid} {correlationId : String}

/-! ### What an event does -/

/-- The status an event reports. -/
def ParsedWebhookEvent.linkStatus? (e : ParsedWebhookEvent) : Option RecoveryPaymentRequestStatus :=
  e.paymentLinkStatus.bind RecoveryPaymentRequestStatus.ofValue?

/-- The amount it reports, if it is one that counts. -/
def ParsedWebhookEvent.amount? (e : ParsedWebhookEvent) : Option Int :=
  e.amountPaid.filter (· ≠ 0)

/-- The answer is "duplicate" when the keys `seen` have been handled: the key is one of them, or
the event has no type, and the row that would claim it is refused. -/
def ParsedWebhookEvent.TakenForDuplicate (e : ParsedWebhookEvent) (seen : List String) : Prop :=
  e.dedupKey ∈ seen ∨ e.eventType = none

instance (e : ParsedWebhookEvent) (seen : List String) : Decidable (e.TakenForDuplicate seen) :=
  inferInstanceAs (Decidable (_ ∨ _))

/-- The event is about this link, and one that is acted on. -/
structure ParsedWebhookEvent.About (e : ParsedWebhookEvent) (link : RecoveryPaymentRequest) :
    Prop where
  reference : e.paymentLinkId = some link.providerReference
  relevant : ∃ status ∈ relevantLinkStatuses, e.paymentLinkStatus = some status

/-- The link once the event has been recorded on it. -/
def RecoveryPaymentRequest.received (link : RecoveryPaymentRequest) (e : ParsedWebhookEvent) :
    RecoveryPaymentRequest :=
  link.observe (e.linkStatus?.getD link.status) e.amountPaid

/-- What is about a link is about it still when an event has been recorded on it. -/
theorem ParsedWebhookEvent.About.received {e e' : ParsedWebhookEvent}
    {link : RecoveryPaymentRequest} (h : e.About link) : e.About (link.received e') :=
  ⟨h.reference, h.relevant⟩

/-- The link is paid in full. -/
def RecoveryPaymentRequest.FullyPaid (link : RecoveryPaymentRequest) : Prop :=
  link.status = .paid ∧ link.amountPaid ≥ link.amount

instance (link : RecoveryPaymentRequest) : Decidable link.FullyPaid :=
  inferInstanceAs (Decidable (_ ∧ _))

/-- The case after an event that has left its link so. -/
def RecoveryCase.settledBy (c : RecoveryCase) (link : RecoveryPaymentRequest) : RecoveryCase :=
  if c.status = .executing then
    if link.FullyPaid then
      c.moved { c with recoveredAmount := c.recoveredAmount + link.amountPaid } .recovered
    else c.moved c .failed
  else c

namespace RecoveryCase

variable {c : RecoveryCase} {link : RecoveryPaymentRequest}

/-- A case that has moved on stays as it is. -/
theorem settledBy_of_movedOn (h : c.status ≠ .executing) : c.settledBy link = c := if_neg h

theorem settledBy_of_paid (h : c.status = .executing) (hpaid : link.FullyPaid) :
    c.settledBy link =
      c.moved { c with recoveredAmount := c.recoveredAmount + link.amountPaid } .recovered := by
  rw [settledBy, if_pos h, if_pos hpaid]

theorem settledBy_of_unpaid (h : c.status = .executing) (hunpaid : ¬ link.FullyPaid) :
    c.settledBy link = c.moved c .failed := by
  rw [settledBy, if_pos h, if_neg hunpaid]

theorem paymentId_settledBy (c : RecoveryCase) (link : RecoveryPaymentRequest) :
    (c.settledBy link).paymentId = c.paymentId := by
  unfold settledBy
  split
  · split <;> rfl
  · rfl

end RecoveryCase

/-- A link that is updated by the session that has read it. -/
theorem RecoveryPaymentRequest.write_observe (link : RecoveryPaymentRequest)
    (status : RecoveryPaymentRequestStatus) (amountPaid : Option Int) :
    link.write (link.observe status amountPaid) link = link.observe status amountPaid := by
  simp only [write, observe, dirty_self]

/-- A payment link and its case. -/
structure Dues where
  link : RecoveryPaymentRequest
  recoveryCase : RecoveryCase

/-- An event is handled. -/
def Dues.take (x : Dues) (e : ParsedWebhookEvent) : Dues :=
  ⟨x.link.received e, x.recoveryCase.settledBy (x.link.received e)⟩

/-- The status that the last of the events reports. -/
def lastStatus? (events : List ParsedWebhookEvent) : Option RecoveryPaymentRequestStatus :=
  (events.filterMap ParsedWebhookEvent.linkStatus?).getLast?

/-- The last amount among the events. -/
def lastAmount? (events : List ParsedWebhookEvent) : Option Int :=
  (events.filterMap ParsedWebhookEvent.amount?).getLast?

/-- Where a link and its case stand. -/
structure Standing where
  caseStatus : RecoveryCaseStatus
  recoveredAmount : Int
  linkStatus : RecoveryPaymentRequestStatus
  amountPaid : Int
  deriving DecidableEq

/-! ### The order of events -/

namespace Dues

variable {x : Dues} {e : ParsedWebhookEvent} {events : List ParsedWebhookEvent}

/-- Any event takes the case out of EXECUTING. -/
theorem take_status_ne (x : Dues) (e : ParsedWebhookEvent) :
    (x.take e).recoveryCase.status ≠ .executing := by
  change (x.recoveryCase.settledBy _).status ≠ _
  by_cases h : x.recoveryCase.status = .executing
  · rw [RecoveryCase.settledBy, if_pos h]
    split <;> simp [RecoveryCase.moved]
  · rwa [RecoveryCase.settledBy_of_movedOn h]

/-- And after that no event changes it. -/
theorem recoveryCase_foldl (h : x.recoveryCase.status ≠ .executing) :
    (events.foldl take x).recoveryCase = x.recoveryCase := by
  induction events generalizing x with
  | nil => rfl
  | cons e events ih =>
    have htake : (x.take e).recoveryCase = x.recoveryCase :=
      RecoveryCase.settledBy_of_movedOn h
    rw [List.foldl_cons, ih (by rwa [htake]), htake]

/-- **The first event decides about the case.** -/
theorem recoveryCase_foldl_head : (events.foldl take x).recoveryCase =
    (events.head?.map fun e => x.recoveryCase.settledBy (x.link.received e)).getD
      x.recoveryCase := by
  cases events with
  | nil => rfl
  | cons e events => exact recoveryCase_foldl (x.take_status_ne e)

/-- **The last event decides** about what every event overwrites, or leaves alone. -/
theorem foldl_last {α : Type} {f : ParsedWebhookEvent → Option α} {g : Dues → α}
    (h : ∀ x e, g (x.take e) = (f e).getD (g x)) :
    g (events.foldl take x) = ((events.filterMap f).getLast?).getD (g x) := by
  induction events generalizing x with
  | nil => rfl
  | cons e events ih =>
    -- Handling `e` first replaces the start by what `e` reports, if it reports anything.
    rw [List.foldl_cons, ih, h, List.filterMap_cons]
    cases f e with
    | none => rfl
    | some a =>
      rw [List.getLast?_cons]
      rfl

/-- The events leave the link the link it was. -/
theorem becomes_foldl : x.link.Becomes (events.foldl take x).link := by
  induction events generalizing x with
  | nil => exact .refl _
  | cons e events ih =>
    have htake : x.link.Becomes (x.take e).link := ⟨rfl, rfl, rfl, rfl, rfl, rfl, rfl⟩
    exact htake.trans ih

/-- Where the two stand. -/
def standing (x : Dues) : Standing where
  caseStatus := x.recoveryCase.status
  recoveredAmount := x.recoveryCase.recoveredAmount
  linkStatus := x.link.status
  amountPaid := x.link.amountPaid

/-- So the first event, the last status and the last amount say where the two stand. -/
theorem standing_foldl : (events.foldl take x).standing =
    let c := (events.head?.map fun e => x.recoveryCase.settledBy (x.link.received e)).getD
      x.recoveryCase
    ⟨c.status, c.recoveredAmount, (lastStatus? events).getD x.link.status,
      (lastAmount? events).getD x.link.amountPaid⟩ := by
  have hstatus : (events.foldl take x).link.status = (lastStatus? events).getD x.link.status :=
    foldl_last (g := fun x => x.link.status) fun _ _ => rfl
  have hamount : (events.foldl take x).link.amountPaid =
      (lastAmount? events).getD x.link.amountPaid :=
    foldl_last (g := fun x => x.link.amountPaid) fun _ _ => rfl
  rw [standing, hstatus, hamount, recoveryCase_foldl_head]

end Dues

/-! ### One delivery -/

/-- The link and the case are in the database, with the payment of the case. -/
structure Db.Holds (db : Db) (x : Dues) : Prop where
  distinct : db.Distinct
  link : x.link ∈ db.recoveryPaymentRequests
  row : db.recoveryCases.get? x.link.recoveryCaseId = some x.recoveryCase
  payment : ∃ p, db.payments.get? x.recoveryCase.paymentId = some p

/-- Where a link and its case stand in the database. -/
def Db.standing (db : Db) (link : RecoveryPaymentRequest) : Option Standing := do
  let c ← db.recoveryCases.get? link.recoveryCaseId
  let row ← db.recoveryPaymentRequests.get? link.id
  return Dues.standing ⟨row, c⟩

/-- A link and a case that the database holds stand there as they do. -/
theorem Db.Holds.standing {x : Dues} {link : RecoveryPaymentRequest} (hx : db.Holds x)
    (hlink : link.Becomes x.link) : db.standing link = some x.standing := by
  have hrow : db.recoveryPaymentRequests.get? x.link.id = some x.link :=
    hx.distinct.linkId.get?_of_mem hx.link
  rw [Db.standing, ← hlink.recoveryCaseId, hx.row, ← hlink.id, hrow]
  rfl

section Yields

variable {Q : RecoveryCase → Db → List Stmt → List Uuid → Prop}

/-- A transition that the state machine allows, of a case that is as it was read. -/
theorem yields_transition {before after : RecoveryCase} {target : RecoveryCaseStatus}
    {reason : Option String} {dirty : List Stmt} (hallowed : canTransition after.status target)
    (hc : Store.checkAll (.updateCase before { after with status := target } :: dirty)
      (Store.applyAll sts db) = none)
    (h : ∀ createdAt c, Store.checkAll (transitionStmts before after target correlationId reason
        dirty createdAt) (Store.applyAll sts db) = none →
      Q c db (sts ++ transitionStmts before after target correlationId reason dirty createdAt) us) :
    Yields t (transition before after target correlationId reason dirty) db sts us Q := by
  have hvalid : validateTransition after.status target = .ok () :=
    validateTransition_eq_ok_iff.mpr hallowed
  simp only [RecoverAI.transition, hvalid]
  refine Yields.bind (yields_pure (Yields.bind (yields_flush hc ?_)))
  refine Yields.bind (yields_recordEvent rfl fun createdAt => yields_pure ?_)
  rw [List.append_assoc]
  refine h createdAt _ ?_
  rw [transitionStmts, Store.checkAll_append, hc]
  rfl

end Yields

/-- The attempt of a link, loaded with its case or not, is there if it is found. -/
theorem yields_getAttempt {loaded : List RecoveryAttempt} {attemptId : Uuid}
    {Q : Option RecoveryAttempt → Db → List Stmt → List Uuid → Prop}
    (hloaded : ∀ a ∈ loaded, (Store.applyAll sts db).AttemptExists a.id)
    (h : ∀ attempt : Option RecoveryAttempt,
      (∀ a ∈ attempt, (Store.applyAll sts db).AttemptExists a.id) → Q attempt db sts us) :
    Yields t (getAttempt loaded attemptId) db sts us Q := by
  unfold getAttempt
  cases hget : Table.get? loaded attemptId with
  | some attempt =>
    -- The session has loaded it with the case.
    refine yields_pure (h _ fun a ha => ?_)
    obtain rfl := Option.some.inj ha
    exact hloaded attempt (Table.mem_of_get? hget)
  | none =>
    -- It is read now, from the rows that are flushed.
    refine yields_select fun ranking => h _ fun a ha => ?_
    exact Table.get?_isSome_of_mem (Table.mem_of_get? ha)

/-- The update of an attempt that is there passes its check. -/
theorem checkAll_failureStmts {d : Delivery} {attempt : Option RecoveryAttempt}
    (h : ∀ a ∈ attempt, db.AttemptExists a.id) :
    Store.checkAll (d.failureStmts attempt) db = none := by
  cases attempt with
  | none => rfl
  | some attempt => exact checkAll_pendingUpdate_attempt (h attempt rfl)

section Settles

variable {d : Delivery}

/-- What is recorded on the link does not touch the attempts. -/
theorem Delivery.attemptExists_observeStmts {now : Time} {id : Uuid} :
    (Store.applyAll (d.observeStmts now) db).AttemptExists id ↔ db.AttemptExists id := by
  have hframe : (Store.applyAll (d.observeStmts now) db).recoveryAttempts = db.recoveryAttempts :=
    Stmt.frame_recoveryAttempts fun st hst => by
      rcases d.table_observeStmts hst with ht | ht | ht <;> rw [ht] <;> simp
  rw [Db.AttemptExists, hframe, Db.AttemptExists]

/-- The case is still as the delivery has read it, so its update passes. -/
theorem Delivery.check_updateCase {now : Time} {after : RecoveryCase}
    (hrow : db.recoveryCases.get? d.loaded.recoveryCase.id = some d.loaded.recoveryCase) :
    Store.check (Stmt.updateCase d.loaded.recoveryCase after)
      (Store.applyAll (d.observeStmts now) db) = none := by
  change Stmt.ifMatched (((Store.applyAll (d.observeStmts now) db).recoveryCases.get?
    d.loaded.recoveryCase.id).any _) = none
  rw [Stmt.frame_recoveryCases d.observeStmts_ne, hrow, Option.any_some, decide_eq_true rfl]
  rfl

/-- What a delivery leaves: its transaction, committed. -/
def Delivered.By (d : Delivery) (db db' : Db) : Prop :=
  ∃ sts, Settles d sts ∧ Store.checkAll sts db = none ∧ db' = Store.applyAll sts db

/-- A delivery that finds its case executing settles it. -/
theorem yields_settleCase {now : Time}
    (hrow : db.recoveryCases.get? d.loaded.recoveryCase.id = some d.loaded.recoveryCase)
    (hloaded : ∀ a ∈ d.loaded.attempts, db.AttemptExists a.id)
    (hexecuting : d.loaded.recoveryCase.status = .executing)
    (hc : Store.checkAll (d.observeStmts now) db = none) :
    Yields t (settleCase d.loaded d.observed d.correlationId) db (d.observeStmts now) us
      fun _ db' sts' _ => sts' = [] ∧ Delivered.By d db db' := by
  have hallowed : ∀ target ∈ [RecoveryCaseStatus.recovered, .failed],
      canTransition d.loaded.recoveryCase.status target := by
    rw [hexecuting]
    decide
  refine Yields.bind (yields_getAttempt (fun a ha =>
    Delivery.attemptExists_observeStmts.mpr (hloaded a ha)) fun attempt hattempt => ?_)
  by_cases hpaid : d.observed.status = .paid ∧ d.observed.amountPaid ≥ d.observed.amount
  · -- The link is paid in full, so the case is recovered.
    rw [if_pos hpaid]
    have hupdate : Store.checkAll [.updateCase d.loaded.recoveryCase
        { d.credited with status := .recovered }] (Store.applyAll (d.observeStmts now) db) = none :=
      Store.checkAll_cons_eq_none.mpr ⟨Delivery.check_updateCase hrow, rfl⟩
    refine Yields.bind
      (yields_transition (hallowed _ (by simp)) hupdate fun createdAt c hmoved => ?_)
    refine Yields.bind (yields_commit (yields_pure ⟨rfl, d.recoverStmts now createdAt,
      .recovered now createdAt hexecuting hpaid, ?_, rfl⟩))
    rw [Delivery.recoverStmts, Store.checkAll_append, hc, Option.none_or]
    exact hmoved
  · -- It has expired, was cancelled, or is paid in part: the case has failed, and its attempt with
    -- it.
    rw [if_neg hpaid]
    have hupdate : Store.checkAll (.updateCase d.loaded.recoveryCase
        { d.loaded.recoveryCase with status := .failed } :: d.failureStmts attempt)
        (Store.applyAll (d.observeStmts now) db) = none := by
      refine Store.checkAll_cons_eq_none.mpr ⟨Delivery.check_updateCase hrow, ?_⟩
      exact checkAll_failureStmts hattempt
    refine Yields.bind
      (yields_transition (hallowed _ (by simp)) hupdate fun createdAt c hmoved => ?_)
    refine Yields.bind (yields_commit (yields_pure ⟨rfl, d.failStmts attempt now createdAt,
      .failed attempt now createdAt hexecuting hpaid, ?_, rfl⟩))
    rw [Delivery.failStmts, Store.checkAll_append, hc, Option.none_or]
    exact hmoved

/-- An event about a link, with the case of the link, is handled as a delivery. -/
theorem yields_applyPaymentLinkEvent {x : Dues} {e : ParsedWebhookEvent}
    {status : RecoveryPaymentRequestStatus} (hx : db.Holds x)
    (hstatus : e.paymentLinkStatus = some status.value)
    (hclaim : Store.checkAll [Delivery.claimStmt e] db = none) :
    Yields t (applyPaymentLinkEvent e x.link.providerReference correlationId) db
      [Delivery.claimStmt e] us fun _ db' sts' _ => sts' = [] ∧ ∃ d : Delivery, d.event = e ∧
        d.link = x.link ∧ d.loaded.recoveryCase = x.recoveryCase ∧ d.status = status ∧
        Delivered.By d db db' := by
  have hlink : ∀ ranking, Query.eval (Store.applyAll [Delivery.claimStmt e] db) ranking
      (.paymentRequestByProviderReference x.link.providerReference) = some x.link :=
    fun _ => hx.distinct.linkReference.find?_of_mem hx.link
  -- The claim is the only statement flushed so far, so the reads find what the database holds.
  have hcase : ∀ ranking, ∃ loaded, Query.eval (Store.applyAll [Delivery.claimStmt e] db) ranking
      (.caseForExecution x.link.recoveryCaseId) = some loaded ∧
        loaded.recoveryCase = x.recoveryCase ∧ ∀ a ∈ loaded.attempts, db.AttemptExists a.id := by
    intro ranking
    obtain ⟨p, hp⟩ := hx.payment
    have hloaded : (Store.applyAll [Delivery.claimStmt e] db).caseForExecution ranking
        x.link.recoveryCaseId =
          some ⟨x.recoveryCase, p, db.attemptsOf ranking x.link.recoveryCaseId⟩ := by
      change (db.recoveryCases.get? x.link.recoveryCaseId).bind _ = _
      rw [hx.row]
      change (db.payments.get? x.recoveryCase.paymentId).bind _ = _
      rw [hp]
      rfl
    exact ⟨_, hloaded, rfl, fun a ha => Db.attemptExists_of_mem_loaded hloaded ha⟩
  refine Yields.bind (yields_select fun ranking => ?_)
  rw [hlink]
  refine Yields.bind (yields_select fun ranking => ?_)
  obtain ⟨loaded, heval, hloadedCase, hattempts⟩ := hcase ranking
  rw [heval]
  let d : Delivery :=
    { event := e, correlationId, paymentLinkId := x.link.providerReference, link := x.link, loaded,
      status }
  have hrow : db.recoveryCases.get? d.loaded.recoveryCase.id = some d.loaded.recoveryCase := by
    change db.recoveryCases.get? loaded.recoveryCase.id = some loaded.recoveryCase
    have hid : x.recoveryCase.id = x.link.recoveryCaseId := Table.key_of_get? hx.row
    rw [hloadedCase, hid, hx.row]
  have hvalid : linkStatusOf e.paymentLinkStatus = pure status := by
    rw [linkStatusOf, hstatus, Option.bind_some, RecoveryPaymentRequestStatus.ofValue?_value]
  have hupdate : Store.checkAll (x.link.pendingUpdate d.observed)
      (Store.applyAll [Delivery.claimStmt e] db) = none :=
    checkAll_pendingUpdate_link (.of_get? (hx.distinct.linkId.get?_of_mem hx.link))
  have hobserve : ∀ now, Store.checkAll (d.observeStmts now) db = none := by
    intro now
    rw [Delivery.observeStmts, ← List.singleton_append, Store.checkAll_append, hclaim,
      Option.none_or, Store.checkAll_append, hupdate]
    rfl
  simp only [hvalid, pure_bind]
  refine Yields.bind (yields_recordEvent hupdate fun now => ?_)
  change Yields t _ db (d.observeStmts now) us _
  by_cases hexecuting : loaded.recoveryCase.status = .executing
  · rw [if_neg (not_not.mpr hexecuting)]
    refine (yields_settleCase hrow hattempts hexecuting (hobserve now)).mono ?_
    rintro _ db' sts' us' ⟨rfl, hby⟩
    exact ⟨rfl, d, rfl, rfl, hloadedCase, rfl, hby⟩
  · rw [if_pos hexecuting]
    refine Yields.bind (yields_commit (yields_pure ⟨rfl, d, rfl, rfl, hloadedCase, rfl, ?_⟩))
    exact ⟨d.observeStmts now, .observed now hexecuting, hobserve now, rfl⟩

/-- An event is claimed if it has a type and its key is not in the ledger yet. -/
theorem yields_claimEvent {e : ParsedWebhookEvent} {Q : Bool → Db → List Stmt → List Uuid → Prop}
    (hduplicate : e.TakenForDuplicate db.dedupKeys → Q false db [] us)
    (hclaimed : ¬ e.TakenForDuplicate db.dedupKeys →
      Store.checkAll [Delivery.claimStmt e] db = none → Q true db [Delivery.claimStmt e] us) :
    Yields t (claimEvent e) db [] us Q := by
  have heval : ∀ ranking, Query.eval (Store.applyAll [] db) ranking
      (.processedWebhookEvent e.dedupKey) =
        db.processedWebhookEvents.find? fun row => row.dedupKey = e.dedupKey := fun _ => rfl
  refine Yields.bind (yields_select fun ranking => ?_)
  rw [heval]
  cases hfind : db.processedWebhookEvents.find? fun row => row.dedupKey = e.dedupKey with
  | some row =>
    have hkey := List.find?_some hfind
    rw [decide_eq_true_eq] at hkey
    exact yields_pure
      (hduplicate (.inl (hkey ▸ List.mem_map_of_mem (List.mem_of_find?_eq_some hfind))))
  | none =>
    have hfree : e.dedupKey ∉ db.dedupKeys := by
      rintro hmem
      obtain ⟨row, hrow, hkey⟩ := List.mem_map.mp hmem
      exact List.find?_eq_none.mp hfind row hrow (decide_eq_true hkey)
    by_cases htype : e.eventType = none
    · -- The refusal of a row without a type is caught like that of a key that is taken.
      have hc : Store.checkAll [Delivery.claimStmt e] db = some .integrity := by
        rw [Store.checkAll, Store.checkAll, Option.or_none]
        change Stmt.unlessTaken (e.eventType.isNone || Stmt.taken _ _ _) = some .integrity
        rw [htype]
        rfl
      exact yields_catch_refused hc
        (Yields.bind (yields_rollback (yields_pure (hduplicate (.inr htype)))))
    · have hc : Store.checkAll [Delivery.claimStmt e] db = none := by
        refine Store.checkAll_cons_eq_none.mpr ⟨?_, rfl⟩
        have htyped : e.eventType.isNone = false :=
          Option.isNone_eq_false_iff.mpr (Option.isSome_iff_ne_none.mpr htype)
        have hnot : Stmt.taken db.processedWebhookEvents ProcessedWebhookEvent.dedupKey
            e.dedupKey = false :=
          Bool.eq_false_iff.mpr fun htaken => hfree (Db.claimed_iff.mp htaken)
        change Stmt.unlessTaken (e.eventType.isNone || Stmt.taken _ _ _) = none
        rw [htyped, Bool.false_or, hnot]
        rfl
      have hnew : ¬ e.TakenForDuplicate db.dedupKeys := fun h => h.elim hfree htype
      exact Yields.tryCatch (Yields.bind (yields_flush hc (yields_pure (hclaimed hnew hc))))

/-- **What a delivery does**: nothing if it is answered as a duplicate, and else what the event
says of the link. -/
theorem yields_processWebhookEvent {x : Dues} {e : ParsedWebhookEvent} (hx : db.Holds x)
    (habout : e.About x.link) :
    Yields t (processWebhookEvent e correlationId) db [] us fun _ db' sts' _ => sts' = [] ∧
      if e.TakenForDuplicate db.dedupKeys then db' = db else ∃ d : Delivery, d.event = e ∧
        d.link = x.link ∧ d.loaded.recoveryCase = x.recoveryCase ∧
        e.linkStatus? = some d.status ∧ Delivered.By d db db' := by
  obtain ⟨v, hrelevant, hv⟩ := habout.relevant
  obtain ⟨status, hvalue, rfl⟩ := ofValue?_of_mem_relevantLinkStatuses hrelevant
  have hlinkStatus : e.linkStatus? = some status := by
    rw [ParsedWebhookEvent.linkStatus?, hv, Option.bind_some, hvalue]
  refine Yields.bind (yields_claimEvent (fun hmem => ?_) fun hfree hc => ?_)
  · -- The answer is "duplicate".
    exact yields_pure ⟨rfl, by rw [if_pos hmem]⟩
  · have hrelevant :
        e.paymentLinkStatus.all (fun v => decide (v ∉ relevantLinkStatuses)) = false := by
      rw [hv, Option.all_some, decide_eq_false (not_not.mpr hrelevant)]
    simp only [Bool.not_true, Bool.false_eq_true, if_false, habout.reference, hrelevant]
    refine Yields.bind (Yields.tryCatch ((yields_applyPaymentLinkEvent hx hv hc).mono ?_))
    rintro _ db' sts' us' ⟨rfl, d, hevent, hlink, hcase, hstatus, hby⟩
    refine yields_pure ⟨rfl, ?_⟩
    rw [if_neg hfree]
    exact ⟨d, hevent, hlink, hcase, by rw [hlinkStatus, hstatus], hby⟩

/-- What a delivery that is given the link and the case does to them. -/
theorem Db.Holds.settles {x : Dues} (hx : db.Holds x) (hlink : d.link = x.link)
    (hcase : d.loaded.recoveryCase = x.recoveryCase) (hstatus : d.event.linkStatus? = some d.status)
    (h : Settles d sts) (hc : Store.checkAll sts db = none) :
    (Store.applyAll sts db).Holds (x.take d.event) := by
  have hobserved : x.link.received d.event = d.observed := by
    rw [RecoveryPaymentRequest.received, hstatus, ← hlink]
    rfl
  have hid : x.recoveryCase.id = x.link.recoveryCaseId := Table.key_of_get? hx.row
  have hread : db.recoveryCases.get? d.loaded.recoveryCase.id = some d.loaded.recoveryCase := by
    rw [hcase, hid, hx.row]
  refine ⟨hx.distinct.applyAll hc, ?_, ?_, ?_⟩
  · -- The link is written as it was observed.
    rw [h.links]
    refine Table.mem_update.mpr (.inr ⟨x.link, hx.link, by rw [hlink]; rfl, ?_⟩)
    change d.link.write d.observed x.link = x.link.received d.event
    rw [hobserved, ← hlink]
    exact d.link.write_observe d.status d.event.amountPaid
  · -- The case goes the way the delivery has gone, in the cases of `Settles`.
    change (Store.applyAll sts db).recoveryCases.get? x.link.recoveryCaseId =
      some (x.recoveryCase.settledBy (x.link.received d.event))
    rw [hobserved, ← hid, ← hcase]
    cases h with
    | observed t movedOn =>
      rw [RecoveryCase.settledBy_of_movedOn movedOn, Stmt.frame_recoveryCases d.observeStmts_ne,
        hread]
    | recovered t t' executing paid =>
      rw [RecoveryCase.settledBy_of_paid executing paid, d.turns_recoverStmts t t' db hread,
        if_pos rfl]
      rfl
    | failed attempt t t' executing unpaid =>
      rw [RecoveryCase.settledBy_of_unpaid executing unpaid,
        d.turns_failStmts attempt t t' db hread, if_pos rfl]
      rfl
  · -- No statement takes the payment away.
    obtain ⟨p, hp⟩ := hx.payment
    refine ⟨p, (Db.Evolves.applyAll hc).payment _ _ ?_⟩
    rw [← hp]
    congr 1
    exact x.recoveryCase.paymentId_settledBy _

end Settles

/-! ### Deliveries one after another -/

/-- The events that are handled when those with the keys `seen` have been: each that has a type,
with the first delivery of its key. -/
def handled (seen : List String) : List ParsedWebhookEvent → List ParsedWebhookEvent
  | [] => []
  | e :: events =>
    if e.TakenForDuplicate seen then handled seen events
    else e :: handled (seen ++ [e.dedupKey]) events

/-- Events are passed over, never reordered. -/
theorem handled_sublist {seen : List String} {events : List ParsedWebhookEvent} :
    (handled seen events).Sublist events := by
  induction events generalizing seen with
  | nil => exact .slnil
  | cons e events ih =>
    unfold handled
    split
    · exact ih.cons e
    · exact ih.cons_cons e

/-- An event that is acted on reports a status. -/
theorem ParsedWebhookEvent.About.exists_linkStatus? {e : ParsedWebhookEvent}
    {link : RecoveryPaymentRequest} (h : e.About link) : ∃ status, e.linkStatus? = some status := by
  obtain ⟨v, hrelevant, hv⟩ := h.relevant
  obtain ⟨status, hvalue, -⟩ := ofValue?_of_mem_relevantLinkStatuses hrelevant
  exact ⟨status, by rw [ParsedWebhookEvent.linkStatus?, hv, Option.bind_some, hvalue]⟩

/-- Deliveries one after another, with nothing else going on. -/
inductive Deliveries : State → List ParsedWebhookEvent → State → Prop
  | nil (s : State) : Deliveries s [] s
  | cons {s s₁ s' : State} {t : Tid} {e : ParsedWebhookEvent} {correlationId : String}
      {is : List Input} {outcome : Outcome} {events : List ParsedWebhookEvent}
      (performed : machine.perform? t (.webhook e correlationId) is s = some (outcome, s₁))
      (rest : Deliveries s₁ events s') : Deliveries s (e :: events) s'

section Runs

variable {s s' : State} {x : Dues} {events : List ParsedWebhookEvent}

/-- What a delivery that is performed alone does. -/
theorem Idle.delivered {e : ParsedWebhookEvent} {is : List Input} {outcome : Outcome} (hs : Idle s)
    (hx : s.db.Holds x) (habout : e.About x.link)
    (h : machine.perform? t (.webhook e correlationId) is s = some (outcome, s')) :
    Idle s' ∧ if e.TakenForDuplicate s.db.dedupKeys then s'.db = s.db else
      s'.db.Holds (x.take e) ∧ s'.db.dedupKeys = s.db.dedupKeys ++ [e.dedupKey] := by
  have hyields : Service.Yields t (Op.service (.webhook e correlationId)) s.db [] (uuidsOf is)
      fun _ db' sts' _ => sts' = [] ∧ db'.Distinct ∧
        if e.TakenForDuplicate s.db.dedupKeys then db' = s.db else
          db'.Holds (x.take e) ∧ db'.dedupKeys = s.db.dedupKeys ++ [e.dedupKey] := by
    refine Service.Yields.map ((yields_processWebhookEvent hx habout).mono ?_)
    rintro _ db' sts' us' ⟨rfl, hdelivered⟩
    by_cases hseen : e.TakenForDuplicate s.db.dedupKeys
    · -- Nothing is written.
      rw [if_pos hseen] at hdelivered ⊢
      exact ⟨rfl, hdelivered ▸ hx.distinct, hdelivered⟩
    · rw [if_neg hseen] at hdelivered ⊢
      obtain ⟨d, rfl, hlink, hcase, hstatus, sts, hsettles, hc, rfl⟩ := hdelivered
      have hholds := hx.settles hlink hcase hstatus hsettles hc
      exact ⟨rfl, hholds.distinct, hholds, by rw [Db.dedupKeys_applyAll, hsettles.claims]⟩
  obtain ⟨hs', _, _, hdelivered⟩ := hs.of_yields hyields h
  exact ⟨hs', hdelivered⟩

/-- **What a row of deliveries does**: the events that are handled, one after another. -/
theorem Deliveries.holds (h : Deliveries s events s') (hs : Idle s) (hx : s.db.Holds x)
    (habout : ∀ e ∈ events, e.About x.link) :
    s'.db.Holds ((handled s.db.dedupKeys events).foldl Dues.take x) := by
  induction h generalizing x with
  | nil s => exact hx
  | @cons s s₁ s' t e correlationId is outcome events performed rest ih =>
    obtain ⟨habout, hrest⟩ := List.forall_mem_cons.mp habout
    obtain ⟨hs₁, hdelivered⟩ := hs.delivered hx habout performed
    unfold handled
    by_cases hseen : e.TakenForDuplicate s.db.dedupKeys
    · -- The event is passed over, and the row goes on from the same database.
      rw [if_pos hseen] at hdelivered ⊢
      rw [← hdelivered]
      exact ih hs₁ (hdelivered ▸ hx) hrest
    · -- It is handled, and its key is seen from here on.
      rw [if_neg hseen] at hdelivered ⊢
      obtain ⟨hx₁, hkeys⟩ := hdelivered
      rw [List.foldl_cons, ← hkeys]
      exact ih hs₁ hx₁ fun e he => (hrest e he).received

/-- Any events can be delivered. -/
theorem Idle.exists_deliveries (settings : Settings) (hs : Idle s) (hx : s.db.Holds x)
    (habout : ∀ e ∈ events, e.About x.link) : ∃ s', Deliveries s events s' := by
  induction events generalizing s x with
  | nil => exact ⟨s, .nil s⟩
  | cons e events ih =>
    obtain ⟨habout, hrest⟩ := List.forall_mem_cons.mp habout
    have hrest' : ∀ e' ∈ events, e'.About (x.take e).link := fun e' he => (hrest e' he).received
    obtain ⟨is, outcome, s₁, -, -, performed⟩ := hs.exists_perform? settings 0 (.webhook e "")
    obtain ⟨hs₁, hdelivered⟩ := hs.delivered hx habout performed
    by_cases hseen : e.TakenForDuplicate s.db.dedupKeys
    · rw [if_pos hseen] at hdelivered
      obtain ⟨s', rest⟩ := ih hs₁ (hdelivered ▸ hx) hrest
      exact ⟨s', .cons performed rest⟩
    · rw [if_neg hseen] at hdelivered
      obtain ⟨s', rest⟩ := ih hs₁ hdelivered.1 hrest'
      exact ⟨s', .cons performed rest⟩

/-- Where a row of deliveries leaves the link and the case. -/
theorem Deliveries.standing (h : Deliveries s events s') (hs : Idle s) (hx : s.db.Holds x)
    (habout : ∀ e ∈ events, e.About x.link) : s'.db.standing x.link =
      some ((handled s.db.dedupKeys events).foldl Dues.take x).standing :=
  (h.holds hs hx habout).standing Dues.becomes_foldl

end Runs

/-- A link and its case, as they are in a database that is reached. -/
theorem Reachable.holds {w : World} (hw : Reachable w) {link : RecoveryPaymentRequest}
    {c : RecoveryCase} (hlink : link ∈ w.shared.db.recoveryPaymentRequests)
    (hcase : w.shared.db.recoveryCases.get? link.recoveryCaseId = some c) :
    w.shared.db.Holds ⟨link, c⟩ := by
  have hl := Reachable.lawful hw
  rw [Reachable.db_eq hw] at hlink hcase ⊢
  obtain ⟨p, hseen, hid, -⟩ := (hl.caseInv hcase).payment
  exact ⟨hl.distinct, hlink, hcase, p, hid ▸ hseen⟩

/-- **The first event decides about the case, and the last about the link.** Of a link whose
case is executing, any events can be delivered. Two rows of deliveries leave link and case
alike if the same event is handled first in both, and the last status and the last amount
are the same. The case is recovered if and only if the event that is handled first pays in
full, with what the link then shows, and the status of the link is that of the last event. -/
theorem order_of_deliveries {w : World} (hw : Reachable w) (hidle : w.shared.pending = [])
    {link : RecoveryPaymentRequest} {c : RecoveryCase}
    (hlink : link ∈ w.shared.db.recoveryPaymentRequests)
    (hcase : w.shared.db.recoveryCases.get? link.recoveryCaseId = some c)
    (hexecuting : c.status = .executing) :
    (∀ events : List ParsedWebhookEvent, (∀ e ∈ events, e.About link) →
      ∃ s, Deliveries w.shared events s) ∧
    (∀ {events events' : List ParsedWebhookEvent} {s s' : State},
      (∀ e ∈ events, e.About link) → (∀ e ∈ events', e.About link) →
      Deliveries w.shared events s → Deliveries w.shared events' s' →
      (handled w.shared.db.dedupKeys events).head? =
        (handled w.shared.db.dedupKeys events').head? →
      lastStatus? (handled w.shared.db.dedupKeys events) =
        lastStatus? (handled w.shared.db.dedupKeys events') →
      lastAmount? (handled w.shared.db.dedupKeys events) =
        lastAmount? (handled w.shared.db.dedupKeys events') →
      s.db.standing link = s'.db.standing link) ∧
    ∀ {events : List ParsedWebhookEvent} {s : State} {e : ParsedWebhookEvent}
      {later : List ParsedWebhookEvent}, (∀ e ∈ events, e.About link) →
      Deliveries w.shared events s → handled w.shared.db.dedupKeys events = e :: later →
      ∃ standing, s.db.standing link = some standing ∧
        (standing.caseStatus = .recovered ↔ (link.received e).FullyPaid) ∧
        ((link.received e).FullyPaid →
          standing.recoveredAmount = c.recoveredAmount + (link.received e).amountPaid) ∧
        lastStatus? (e :: later) = some standing.linkStatus := by
  have hs := Reachable.idle hw hidle
  have hx := Reachable.holds hw hlink hcase
  refine ⟨fun events habout => hs.exists_deliveries Sample.settings hx habout,
    fun {events events' s s'} habout habout' h h' hfirst hstatus hamount => ?_,
    fun {events s e later} habout h hhandled => ?_⟩
  · -- Both rows end in what the first event, the last status and the last amount make of it.
    rw [h.standing hs hx habout, h'.standing hs hx habout', Dues.standing_foldl,
      Dues.standing_foldl, hfirst, hstatus, hamount]
  · refine ⟨_, h.standing hs hx habout, ?_⟩
    rw [hhandled, Dues.standing_foldl]
    have he : e.About link := habout e (handled_sublist.subset (hhandled ▸ List.mem_cons_self))
    have hlast : ∃ status, lastStatus? (e :: later) = some status := by
      obtain ⟨status, hstatus⟩ := he.exists_linkStatus?
      rw [lastStatus?, List.filterMap_cons_some hstatus, List.getLast?_cons]
      exact ⟨_, rfl⟩
    obtain ⟨status, hlast⟩ := hlast
    simp only [List.head?_cons, Option.map_some, Option.getD_some, hlast]
    -- Only the first event has found the case executing.
    by_cases hpaid : (link.received e).FullyPaid
    · rw [RecoveryCase.settledBy_of_paid hexecuting hpaid]
      exact ⟨iff_of_true rfl hpaid, fun _ => rfl, trivial⟩
    · rw [RecoveryCase.settledBy_of_unpaid hexecuting hpaid]
      exact ⟨iff_of_false RecoveryCaseStatus.noConfusion hpaid, fun h => absurd h hpaid, trivial⟩

namespace Sample

/-- The link "L" is paid in full, and expires. -/
def paidInFull : ParsedWebhookEvent := event "k1" "L" "paid" (some 500)

def lapsed : ParsedWebhookEvent := event "k2" "L" "expired" none

set_option maxRecDepth 10000 in
/-- After an execution there is the link "L" of 500, and its case is executing. -/
theorem exists_executing : ∃ link c, (World.empty.after executed).shared.db.Holds ⟨link, c⟩ ∧
    c.status = .executing ∧ c.recoveredAmount = 0 ∧ link.providerReference = "L" ∧
    link.amount = 500 := by
  have hw : Reachable (World.empty.after executed) := World.reachable_after _
  have hlinks : (World.empty.after executed).shared.db.recoveryPaymentRequests.map (fun l =>
      (l.recoveryCaseId, l.providerReference, l.amount)) = [(3, "L", 500)] := by decide +kernel
  have hcases : ((World.empty.after executed).shared.db.recoveryCases.get? 3).map (fun c =>
      (c.status, c.recoveredAmount)) = some (.executing, 0) := by decide +kernel
  obtain ⟨link, hlink, hrow⟩ := List.mem_map.mp (hlinks ▸ List.mem_singleton_self _)
  obtain ⟨c, hcase, hstatus⟩ := Option.map_eq_some_iff.mp hcases
  simp only [Prod.mk.injEq] at hrow hstatus
  exact ⟨link, c, Reachable.holds hw hlink (hrow.1 ▸ hcase), hstatus.1, hstatus.2, hrow.2⟩

/-- Both events are about it. -/
theorem about_of_mem {link : RecoveryPaymentRequest} (h : link.providerReference = "L") :
    ∀ e ∈ [paidInFull, lapsed], e.About link := by
  simp only [List.forall_mem_cons, List.not_mem_nil, false_imp_iff, implies_true, and_true]
  exact ⟨⟨by rw [h]; rfl, "paid", by decide, rfl⟩, by rw [h]; rfl, "expired", by decide, rfl⟩

/-- The one order and the other. -/
theorem handled_orders : handled [] [paidInFull, lapsed] = [paidInFull, lapsed] ∧
    handled [] [lapsed, paidInFull] = [lapsed, paidInFull] := by
  constructor
  · simp [handled, ParsedWebhookEvent.TakenForDuplicate, paidInFull, lapsed, event]
  · simp [handled, ParsedWebhookEvent.TakenForDuplicate, paidInFull, lapsed, event]

set_option maxRecDepth 10000 in
theorem dedupKeys_executed : (World.empty.after executed).shared.db.dedupKeys = [] := by
  decide +kernel

set_option maxRecDepth 10000 in
theorem pending_executed : (World.empty.after executed).shared.pending = [] := by
  decide +kernel

end Sample

/-- Paid first and expired afterwards: the case is recovered, the link has expired. -/
theorem order_of_deliveries_executed : ∃ link s standing,
    Deliveries (World.empty.after Sample.executed).shared [Sample.paidInFull, Sample.lapsed] s ∧
      s.db.standing link = some standing ∧ standing.caseStatus = .recovered ∧
      standing.recoveredAmount = 500 ∧ standing.linkStatus = .expired := by
  obtain ⟨link, c, hx, hexecuting, hrecovered, hreference, hamount⟩ := Sample.exists_executing
  obtain ⟨hexists, -, hends⟩ := order_of_deliveries (World.reachable_after Sample.executed)
    Sample.pending_executed hx.link hx.row hexecuting
  have habout := Sample.about_of_mem hreference
  obtain ⟨s, hs⟩ := hexists _ habout
  obtain ⟨standing, hstanding, hiff, hcredited, hlast⟩ :=
    hends habout hs (Sample.dedupKeys_executed ▸ Sample.handled_orders.1)
  have hpaid : (link.received Sample.paidInFull).FullyPaid := ⟨rfl, by
    change (500 : Int) ≥ link.amount
    rw [hamount]⟩
  refine ⟨link, s, standing, hs, hstanding, hiff.mpr hpaid, ?_, (Option.some.inj hlast).symm⟩
  rw [hcredited hpaid, hrecovered]
  rfl

/-- **The order decides**: a link that is paid in full and reported as expired afterwards has
its case recovered and is expired; the other way round the case has failed, nothing is
credited, and the link is paid. -/
theorem order_decides : ∃ link c s s',
    link ∈ (World.empty.after Sample.executed).shared.db.recoveryPaymentRequests ∧
    (World.empty.after Sample.executed).shared.db.recoveryCases.get? link.recoveryCaseId =
      some c ∧
    c.status = .executing ∧
    (∀ e ∈ [Sample.paidInFull, Sample.lapsed], e.About link) ∧
    (link.received Sample.paidInFull).FullyPaid ∧
    Deliveries (World.empty.after Sample.executed).shared [Sample.paidInFull, Sample.lapsed] s ∧
    Deliveries (World.empty.after Sample.executed).shared [Sample.lapsed, Sample.paidInFull] s' ∧
    s.db.standing link = some ⟨.recovered, 500, .expired, 500⟩ ∧
    s'.db.standing link = some ⟨.failed, 0, .paid, 500⟩ := by
  obtain ⟨link, c, hx, hexecuting, hrecovered, hreference, hamount⟩ := Sample.exists_executing
  have hidle := Reachable.idle (World.reachable_after Sample.executed) Sample.pending_executed
  have habout := Sample.about_of_mem hreference
  have habout' : ∀ e ∈ [Sample.lapsed, Sample.paidInFull], e.About link := fun e he =>
    habout e ((List.Perm.swap _ _ _).mem_iff.mp he)
  have hpaid : (link.received Sample.paidInFull).FullyPaid := ⟨rfl, by
    change (500 : Int) ≥ link.amount
    rw [hamount]⟩
  have hunpaid : ¬ (link.received Sample.lapsed).FullyPaid := fun h => by cases h.1
  obtain ⟨s, hs⟩ := hidle.exists_deliveries Sample.settings hx habout
  obtain ⟨s', hs'⟩ := hidle.exists_deliveries Sample.settings hx habout'
  refine ⟨link, c, s, s', hx.link, hx.row, hexecuting, habout, hpaid, hs, hs', ?_, ?_⟩
  · rw [hs.standing hidle hx habout, Sample.dedupKeys_executed, Sample.handled_orders.1,
      Dues.standing_foldl]
    simp only [List.head?_cons, Option.map_some, Option.getD_some,
      RecoveryCase.settledBy_of_paid hexecuting hpaid, RecoveryCase.moved, hrecovered]
    rfl
  · rw [hs'.standing hidle hx habout', Sample.dedupKeys_executed, Sample.handled_orders.2,
      Dues.standing_foldl]
    simp only [List.head?_cons, Option.map_some, Option.getD_some,
      RecoveryCase.settledBy_of_unpaid hexecuting hunpaid, RecoveryCase.moved, hrecovered]
    rfl

end RecoverAI
