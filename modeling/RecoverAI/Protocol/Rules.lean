import RecoverAI.Protocol.Cycles

/-!
# The rules of the protocol

Where an execution stands is read off the record of its operation (`phase`). The
rules `Txn` say which transactions an operation may commit from its record,
`Permitted` extends them to the other events that matter, and `Guarantee` is the
step relation they amount to: what one command of one operation may do to the
state all operations share.

Facts about runs are proved from `Guarantee` alone, rule by rule. That the
programs keep it is the subject of `RecoverAI.Refinement`.
-/

namespace RecoverAI

open Interleave

/-! ### Phases -/

/-- Where an execution stands: it has claimed its case, noted its attempt, called
the provider (with the link really made and the answer that came), searched for
the link after an ambiguous answer, and noted what it found. The case is the row
as the claim left it. -/
inductive Phase where
  | idle
  | claimed (recoveryCase : RecoveryCase)
  | attempted (recoveryCase : RecoveryCase) (attempt : RecoveryAttempt)
  | called (recoveryCase : RecoveryCase) (attempt : RecoveryAttempt)
      (made : Option PaymentLinkSnapshot) (answer : Except ProviderException PaymentLinkSnapshot)
  | searched (recoveryCase : RecoveryCase) (attempt : RecoveryAttempt)
      (made : Option PaymentLinkSnapshot)
      (found : Except ProviderException (Option PaymentLinkSnapshot))
  | reconciled (recoveryCase : RecoveryCase) (attempt : RecoveryAttempt)
      (made : Option PaymentLinkSnapshot)
      (found : Except ProviderException (Option PaymentLinkSnapshot))

/-- The rows of an update of a case. -/
def Stmt.caseUpdate? : Stmt → Option (RecoveryCase × RecoveryCase)
  | .updateCase before after => some (before, after)
  | _ => none

/-- The row of an inserted attempt. -/
def Stmt.attemptInsert? : Stmt → Option RecoveryAttempt
  | .insertAttempt a => some a
  | _ => none

/-- The case a transaction claims: its only update of a case takes an approved case
to EXECUTING. -/
def claimOf (sts : List Stmt) : Option RecoveryCase :=
  match sts.filterMap Stmt.caseUpdate? with
  | [(before, after)] =>
    -- The claim is told by the statuses of the row alone: an operation knows its own transaction,
    -- and nothing about which service wrote it.
    if before.status = .approved ∧ after.status = .executing then
      some { after with version := before.version + 1 }
    else none
  | _ => none

/-- A transaction that takes a case elsewhere claims nothing. -/
theorem claimOf_eq_none_of_mem {sts : List Stmt} (before after : RecoveryCase)
    (h : .updateCase before after ∈ sts) (hs : after.status ≠ .executing) : claimOf sts = none := by
  have hmem : (before, after) ∈ sts.filterMap Stmt.caseUpdate? :=
    List.mem_filterMap.mpr ⟨_, h, rfl⟩
  unfold claimOf
  split
  · next b a he =>
    -- The transaction has one update of a case, and it is the one given.
    rw [he, List.mem_singleton] at hmem
    obtain ⟨rfl, rfl⟩ := Prod.mk.inj hmem
    exact if_neg fun hc => hs hc.2
  · rfl

/-- Nor does one that updates no case. -/
theorem claimOf_eq_none_of_forall {sts : List Stmt} (h : ∀ st ∈ sts, st.caseUpdate? = none) :
    claimOf sts = none := by
  have hnil : sts.filterMap Stmt.caseUpdate? = [] := List.filterMap_eq_nil_iff.mpr h
  unfold claimOf
  rw [hnil]

namespace Phase

/-- An execution goes on with an answer of the provider, unless it raises what is no provider
error and is caught by no service. -/
def unlessRaised {α : Type} (answer : Except ProviderException α) (p : Phase) : Phase :=
  match answer with
  | .error (.other _) => idle
  | _ => p

/-- How an event moves an execution on. -/
def next : Phase → Event → Phase
  | _, .started _ => idle
  | _, .refused _ _ => idle
  | _, .ended _ => idle
  -- A transaction that claims no case leaves an idle operation idle: a diagnosis, an ingestion and
  -- a delivery never leave this phase.
  | idle, .committed sts =>
    match claimOf sts with
    | some c => claimed c
    | none => idle
  -- The second transaction of an execution is the one with the attempt.
  | claimed c, .committed sts =>
    match sts.findSome? Stmt.attemptInsert? with
    | some a => attempted c a
    | none => idle
  | attempted c a, .created _ _ made answer => (called c a made answer).unlessRaised answer
  | called c a made _, .found _ found => (searched c a made found).unlessRaised found
  | searched c a made found, .committed _ => reconciled c a made found
  -- The last transaction of an execution, whichever it is, ends it.
  | _, .committed _ => idle
  -- Clock readings, settings, selects and answers of the AI move nothing on.
  | p, _ => p

/-- What an answer makes of a phase: it is left, or the execution is over. -/
theorem unlessRaised_eq {α : Type} (answer : Except ProviderException α) (p : Phase) :
    p.unlessRaised answer = idle ∨ p.unlessRaised answer = p := by
  unfold unlessRaised
  split
  · exact .inl rfl
  · exact .inr rfl

/-- What is read from an execution that goes on was to be read from it. -/
theorem of_unlessRaised {α β : Type} {answer : Except ProviderException α} {p : Phase} {b : β}
    (read : Phase → Option β) (hidle : read idle = none)
    (h : read (p.unlessRaised answer) = some b) : read p = some b := by
  rcases unlessRaised_eq answer p with he | he <;> rw [he] at h
  · rw [hidle] at h
    cases h
  · exact h

section Next

variable (p : Phase)

@[simp] theorem next_clock (t : Time) : p.next (.clock t) = p := by cases p <;> rfl

@[simp] theorem next_configured (s : Settings) : p.next (.configured s) = p := by cases p <;> rfl

@[simp] theorem next_selected (q : Query) (r : q.Result) : p.next (.selected q r) = p := by
  cases p <;> rfl

@[simp] theorem next_recommended (c : PaymentRecoveryContext) (a : Except Raised AIOutcome) :
    p.next (.recommended c a) = p := by
  cases p <;> rfl

@[simp] theorem next_refused (sts : List Stmt) (e : DbError) : p.next (.refused sts e) = idle := by
  cases p <;> rfl

variable {p}

/-- What is read from a phase, and not from an idle one, was read before the event, unless the
event is a commit or an answer of the provider with which the execution goes on. -/
theorem of_next {β : Type} {e : Event} {b : β} (read : Phase → Option β) (hidle : read idle = none)
    (h : read (p.next e) = some b) :
    read p = some b ∨ (∃ sts, e = .committed sts) ∨
      (∃ c a caseId request made answer, p = attempted c a ∧
        e = .created caseId request made answer ∧ read (called c a made answer) = some b) ∨
      ∃ c a made answer referenceId found, p = called c a made answer ∧
        e = .found referenceId found ∧ read (searched c a made found) = some b := by
  cases e with
  | committed sts => exact .inr (.inl ⟨sts, rfl⟩)
  -- The two answers of the provider are the only events beside a commit that fill a phase.
  | created caseId request made answer =>
    cases p with
    | attempted c a =>
      have hread := of_unlessRaised read hidle h
      exact .inr (.inr (.inl ⟨c, a, caseId, request, made, answer, rfl, rfl, hread⟩))
    | _ => exact .inl h
  | found referenceId found =>
    cases p with
    | called c a made answer =>
      have hread := of_unlessRaised read hidle h
      exact .inr (.inr (.inr ⟨c, a, made, answer, referenceId, found, rfl, rfl, hread⟩))
    | _ => exact .inl h
  | started op =>
    -- An operation that starts, is refused or ends has nothing in hand.
    have hnext : p.next (.started op) = idle := by cases p <;> rfl
    rw [hnext, hidle] at h
    cases h
  | refused sts error =>
    rw [next_refused, hidle] at h
    cases h
  | ended outcome =>
    have hnext : p.next (.ended outcome) = idle := by cases p <;> rfl
    rw [hnext, hidle] at h
    cases h
  | clock _ => rw [next_clock] at h; exact .inl h
  | configured _ => rw [next_configured] at h; exact .inl h
  | selected _ _ => rw [next_selected] at h; exact .inl h
  | recommended _ _ => rw [next_recommended] at h; exact .inl h

end Next

/-- The case an execution has in hand. -/
def case? : Phase → Option RecoveryCase
  | idle => none
  | claimed c => some c
  | attempted c _ => some c
  | called c _ _ _ => some c
  | searched c _ _ _ => some c
  | reconciled c _ _ _ => some c

/-- An operation may end here: nothing is in hand, or its attempt is noted and the expiry of
the link cannot be computed. -/
def MayEnd : Phase → Prop
  | idle => True
  | attempted _ _ => True
  | _ => False

end Phase

/-- Where an operation with this record (newest first) stands. -/
def phase : List Event → Phase
  | [] => .idle
  | e :: h => (phase h).next e

@[simp] theorem phase_nil : phase [] = .idle := rfl

@[simp] theorem phase_cons (e : Event) (h : List Event) : phase (e :: h) = (phase h).next e := rfl

/-- The transactions in a record, newest first. -/
def commits : List Event → List (List Stmt)
  | [] => []
  | .committed sts :: h => sts :: commits h
  | _ :: h => commits h

/-! ### What an operation knows -/

/-- The operation with this record is not a delivery. -/
class NotDelivery (h : List Event) : Prop where
  not_started : ∀ event correlationId, .started (.webhook event correlationId) ∉ h

/-- A clock reading starts no operation. -/
theorem NotDelivery.clock {h : List Event} (hop : NotDelivery h) {now : Time} :
    NotDelivery (.clock now :: h) :=
  ⟨fun event correlationId hst => by
    rcases List.mem_cons.mp hst with hst | hst
    · cases hst
    · exact hop.not_started event correlationId hst⟩

/-- Nor is a diagnosis under way in it. -/
class Between (h : List Event) : Prop extends NotDelivery h where
  closed : diagnosing h = none

/-- A clock reading opens no diagnosis. -/
theorem Between.clock {h : List Event} (hop : Between h) {now : Time} :
    Between (.clock now :: h) where
  toNotDelivery := hop.toNotDelivery.clock
  closed := diagnosing_cons_eq_none rfl hop.closed

/-- Where the customer of an ingestion comes from: it is new, and no customer with the
reference was found, or it is the one that was found. -/
def CustomerRead (externalReference : Option String) (newCustomer : Bool) (customer : Customer)
    (h : List Event) : Prop :=
  match newCustomer with
  -- A new customer has counted nothing yet. It is made without a look-up when the report names no
  -- reference.
  | true => customer = ⟨customer.id, externalReference, 0, 0⟩ ∧ ∀ reference,
      truthy externalReference = some reference →
        .selected (.customersByExternalReference reference) ([] : List Customer) ∈ h
  | false => ∃ reference, truthy externalReference = some reference ∧
      .selected (.customersByExternalReference reference) [customer] ∈ h

/-- The look-up of a customer is not forgotten. -/
theorem CustomerRead.mono {externalReference : Option String} {newCustomer : Bool}
    {customer : Customer} {h h' : List Event} (hsub : ∀ e ∈ h, e ∈ h')
    (hc : CustomerRead externalReference newCustomer customer h) :
    CustomerRead externalReference newCustomer customer h' := by
  cases newCustomer with
  -- The look-up that found nobody is still in the longer record.
  | true => exact hc.imp_right fun hnone reference hr => hsub _ (hnone reference hr)
  | false =>
    obtain ⟨reference, hr, hread⟩ := hc
    exact ⟨reference, hr, hsub _ hread⟩

/-- What an ingestion knows when it commits a new payment. -/
structure Ingestion.Known (i : Ingestion) (h : List Event) : Prop where
  started : .started (.ingest i.request i.correlationId) ∈ h
  unknown : ∀ providerPaymentId, truthy i.request.providerPaymentId = some providerPaymentId →
    .selected (.paymentByProviderPaymentId providerPaymentId) none ∈ h
  customer : CustomerRead i.request.customerReference i.newCustomer i.customer h

/-- What an execution knows of the case and the payment it has read. -/
structure Execution.Known (x : Execution) (db : Db) : Prop where
  caseSeen : db.CaseSeen x.recoveryCase
  paymentSeen : db.PaymentSeen x.payment
  paymentId : x.payment.id = x.recoveryCase.paymentId
  approved : x.recoveryCase.status = .approved
  action : x.recoveryCase.recommendedAction = some x.action

/-- The re-check of an execution let it go ahead. -/
structure Execution.Cleared (x : Execution) : Prop where
  allowed : x.decision.decision = .allow
  executable : x.action ∈ EXECUTABLE_ACTIONS

/-- What a diagnosis knows of the case and the payment it has read. -/
structure Diagnosis.Known (d : Diagnosis) (db : Db) : Prop where
  caseSeen : db.CaseSeen d.before
  paymentSeen : db.PaymentSeen d.payment
  paymentId : d.payment.id = d.before.paymentId

/-- What a delivery knows of its event, the link and the case. -/
structure Delivery.Known (d : Delivery) (h : List Event) (db : Db) : Prop where
  started : .started (.webhook d.event d.correlationId) ∈ h
  linkId : d.event.paymentLinkId = some d.paymentLinkId
  reference : d.link.providerReference = d.paymentLinkId
  status : d.event.paymentLinkStatus = some d.status.value
  relevant : d.status.value ∈ relevantLinkStatuses
  linkSeen : db.LinkSeen d.link
  caseSeen : db.CaseSeen d.loaded.recoveryCase
  caseId : d.loaded.recoveryCase.id = d.link.recoveryCaseId
  reads : d.reads <:+: h

/-! ### The rules -/

/-- **The transactions an operation may commit.** -/
inductive Txn (h : List Event) (db : Db) : List Stmt → Prop where
  /-- A payment that is not yet known, without a case. -/
  | ingested (i : Ingestion) (op : Between h) (idle : phase h = .idle) (known : i.Known h) :
      Txn h db i.stmts
  /-- A failed payment with its case. -/
  | ingestedWithCase (i : Ingestion) (id : Uuid) (createdAt t' : Time) (op : Between h)
      (idle : phase h = .idle) (known : i.Known h) (failed : i.payment.status = .failed) :
      Txn h db (i.stmts ++ openingStmts id i.payment createdAt i.correlationId t')
  /-- A payment that is known already. -/
  | deduplicated (payment : Payment) (key correlationId : String) (t : Time) (op : Between h)
      (idle : phase h = .idle)
      (read : .selected (.paymentByProviderPaymentId key) (some payment) ∈ h) :
      Txn h db [auditStmt (.payment payment.id) (.paymentIngestDeduplicated key) .system
        correlationId t]
  /-- Cases for failed payments: one on request, or any number in a sweep. -/
  | opened (openings : List Opening) (correlationId : String) (op : Between h)
      (idle : phase h = .idle)
      (failed : ∀ o ∈ openings, db.PaymentSeen o.2.1 ∧ o.2.1.status = .failed) :
      Txn h db (openings.map fun o => Opening.stmts o correlationId).flatten
  /-- A diagnosis that turns the case away. -/
  | turnedAway (d : Diagnosis) (op : NotDelivery h) (idle : phase h = .idle) (known : d.Known db)
      (status : d.before.status = .discovered) (ineligible : d.eligible = false)
      (reads : .clock d.t₁ :: d.requestReads <+: h) :
      Txn h db d.turnAwayStmts
  /-- A diagnosis that goes through. -/
  | diagnosed (d : Diagnosis) (op : NotDelivery h) (idle : phase h = .idle) (known : d.Known db)
      (status : d.before.status ∈ diagnosableStatuses)
      (admitted : d.before.status = .discovered → d.eligible = true)
      (reads : ∃ settings t, d.config = getPolicyConfig settings ∧ d.reads settings t <+: h) :
      Txn h db d.stmts
  /-- An execution claims its case. -/
  | claimed (x : Execution) (op : Between h) (idle : phase h = .idle) (known : x.Known db)
      (cleared : x.Cleared) (reads : x.reads <+: h) :
      Txn h db x.claimStmts
  /-- An execution is withheld by the re-check. -/
  | withheld (x : Execution) (reason : String) (t : Time) (op : Between h) (idle : phase h = .idle)
      (known : x.Known db) (withheld : ¬ x.Cleared) :
      Txn h db (x.withholdStmts reason t)
  /-- An execution notes its attempt. -/
  | attempted (recoveryCase : RecoveryCase) (payment : Payment) (correlationId reference : String)
      (id : Uuid) (startedAt createdAt t : Time) (op : Between h)
      (claimed : phase h = .claimed recoveryCase)
      (paymentSeen : db.PaymentSeen payment) (paymentId : payment.id = recoveryCase.paymentId) :
      Txn h db (attemptStmts
        (startedAttempt recoveryCase payment correlationId reference id startedAt createdAt)
        payment correlationId t)
  /-- An execution records the link it was answered with, or found. -/
  | recorded (recoveryCase : RecoveryCase) (attempt : RecoveryAttempt)
      (made : Option PaymentLinkSnapshot) (link : PaymentLinkSnapshot) (id : Uuid)
      (completedAt : Time) (correlationId : String) (t : Time) (op : Between h)
      (inHand : phase h = .called recoveryCase attempt made (.ok link) ∨
        phase h = .reconciled recoveryCase attempt made (.ok (some link)))
      (caseSeen : db.CaseSeen recoveryCase) (attemptSeen : db.AttemptSeen attempt) :
      Txn h db (recordStmts recoveryCase attempt link id completedAt correlationId t)
  /-- An execution notes the ambiguous answer and the result of the search. -/
  | reconciled (recoveryCase : RecoveryCase) (attempt : RecoveryAttempt)
      (made : Option PaymentLinkSnapshot)
      (found : Except ProviderException (Option PaymentLinkSnapshot))
      (error : PaymentProviderError) (link : Option PaymentLinkSnapshot)
      (searchError : Option String) (correlationId : String) (t t' : Time) (op : Between h)
      (searched : phase h = .searched recoveryCase attempt made found) :
      Txn h db (reconcileStmts attempt error link searchError correlationId t t')
  /-- An execution gives up: the call failed, or the search found nothing. -/
  | gaveUp (recoveryCase : RecoveryCase) (attempt : RecoveryAttempt)
      (made : Option PaymentLinkSnapshot) (category : ProviderFailureCategory)
      (message reason correlationId : String) (completedAt t : Time) (op : Between h)
      (inHand : (∃ e, phase h = .called recoveryCase attempt made
          (.error (.paymentProvider e)) ∧ e.kind ≠ .ambiguous) ∨
        (∃ found, phase h = .reconciled recoveryCase attempt made found ∧
          ∀ link, found ≠ .ok (some link)))
      (caseSeen : db.CaseSeen recoveryCase) (attemptSeen : db.AttemptSeen attempt) :
      Txn h db (giveUpStmts recoveryCase attempt category message reason correlationId
        completedAt t)
  /-- A delivery that concerns no link, or no change of one. -/
  | ignored (event : ParsedWebhookEvent) (correlationId : String) (idle : phase h = .idle)
      (started : .started (.webhook event correlationId) ∈ h)
      (irrelevant : event.paymentLinkId = none ∨
        event.paymentLinkStatus.all (· ∉ relevantLinkStatuses)) :
      Txn h db [Delivery.claimStmt event]
  /-- A delivery about a link that is not recorded. -/
  | unmatched (event : ParsedWebhookEvent) (correlationId paymentLinkId : String) (t : Time)
      (idle : phase h = .idle) (started : .started (.webhook event correlationId) ∈ h)
      (linkId : event.paymentLinkId = some paymentLinkId)
      (read : .selected (.paymentRequestByProviderReference paymentLinkId) none ∈ h) :
      Txn h db [Delivery.claimStmt event,
        auditStmt (.webhook (unmatchedLinkEntityName paymentLinkId))
          (.webhookUnmatchedPaymentLink paymentLinkId event.eventType) .system correlationId t]
  /-- A delivery about a link whose case could not be loaded. -/
  | detached (event : ParsedWebhookEvent) (correlationId : String) (caseId : Uuid)
      (idle : phase h = .idle) (started : .started (.webhook event correlationId) ∈ h)
      (read : .selected (.caseForExecution caseId) none ∈ h) :
      Txn h db [Delivery.claimStmt event]
  /-- A delivery that finds the case moved on. -/
  | observed (d : Delivery) (t : Time) (idle : phase h = .idle) (known : d.Known h db)
      (movedOn : d.loaded.recoveryCase.status ≠ .executing) :
      Txn h db (d.observeStmts t)
  /-- A delivery that recovers the case. -/
  | recovered (d : Delivery) (t t' : Time) (idle : phase h = .idle) (known : d.Known h db)
      (executing : d.loaded.recoveryCase.status = .executing) (paid : d.FullyPaid) :
      Txn h db (d.recoverStmts t t')
  /-- A delivery that fails the case. -/
  | failed (d : Delivery) (attempt : Option RecoveryAttempt) (t t' : Time)
      (idle : phase h = .idle) (known : d.Known h db)
      (executing : d.loaded.recoveryCase.status = .executing) (unpaid : ¬ d.FullyPaid)
      (read : Table.get? d.loaded.attempts d.link.recoveryAttemptId = attempt ∨
        .selected (.attempt d.link.recoveryAttemptId) attempt ∈ h) :
      Txn h db (d.failStmts attempt t t')
  /-- The report of a cycle. -/
  | cycled (cycleId : Uuid) (body : AuditBody) (correlationId : String) (t : Time)
      (op : Between h) (idle : phase h = .idle)
      (report : ∃ b n₁ n₂ n₃ n₄ n₅ n₆ n₇, body = .recoveryCycleCompleted b n₁ n₂ n₃ n₄ n₅ n₆ n₇) :
      Txn h db [auditStmt (.recoveryCycle cycleId) body .system correlationId t]

/-- **The calls of the provider an operation may make.** The case is claimed and the
attempt noted, both committed, and the request is for the payment that was read. -/
structure Called (h : List Event) (db : Db) (caseId : Uuid) (request : CreatePaymentLinkRequest)
    (x : Execution) (attempt : RecoveryAttempt) : Prop where
  onBehalf : caseId = x.recoveryCase.id
  attempted : phase h = .attempted x.claimed attempt
  known : x.Known db
  cleared : x.Cleared
  reads : .committed x.claimStmts :: x.reads <:+: h
  attemptCase : attempt.recoveryCaseId = caseId
  reference : attempt.idempotencyKey = some request.referenceId
  amount : request.amount = x.payment.amount
  currency : request.currency = x.payment.currency
  within : Within h

/-- A transaction of the operation has changed the case. -/
def Acted (h : List Event) (caseId : Uuid) : Prop :=
  ∃ sts ∈ commits h, ∃ before after, .updateCase before after ∈ sts ∧ before.id = caseId

/-- A case that was changed stays changed, whatever the operation does next. -/
theorem Acted.cons {h : List Event} {caseId : Uuid} (ha : Acted h caseId) (e : Event) :
    Acted (e :: h) caseId := by
  obtain ⟨sts, hsts, hmem⟩ := ha
  refine ⟨sts, ?_, hmem⟩
  -- Only a commit adds a transaction to the record; the one that acted stays in it.
  cases e with
  | committed _ => exact List.mem_cons_of_mem _ hsts
  | _ => exact hsts

/-- An execution that changed nothing lost its case to another one. The last two
cases are a case that does not exist, and an approved case without an action. -/
def Lost (h : List Event) (caseId : Uuid) (outcome : Outcome) : Prop :=
  (∃ m, outcome = .error (.recoverAI (.invalidStateTransition m))) ∨
  (∃ m, outcome = .error (.recoverAI (.concurrentModification m))) ∨
  .selected (.caseForExecution caseId) none ∈ h ∨
  (∃ loaded, .selected (.caseForExecution caseId) (some loaded) ∈ h ∧
    loaded.recoveryCase.status = .approved ∧ loaded.recoveryCase.recommendedAction = none)

/-- What a delivery has committed when it ends. -/
def Delivered (h : List Event) (event : ParsedWebhookEvent) : Outcome → Prop
  | .ok (.webhookProcessed result) =>
    if result.status = .duplicate then commits h = []
    else ∃ sts, commits h = [sts] ∧ Delivery.claimStmt event ∈ sts
  | .ok _ => False
  | .error _ => commits h = []

/-- A record continued by a whole diagnosis, with the status it leaves its case in: what it
has read, and its one transaction. -/
inductive WholeDiagnosis (older : List Event) : Uuid → RecoveryCaseStatus → List Event → Prop where
  | turnedAway (d : Diagnosis) (status : d.before.status = .discovered)
      (ineligible : d.eligible = false) : WholeDiagnosis older d.before.id .ineligible
      (.committed d.turnAwayStmts :: .clock d.t₁ :: (d.requestReads ++ older))
  | diagnosed (d : Diagnosis) (settings : Settings) (t : Time)
      (status : d.before.status ∈ diagnosableStatuses)
      (admitted : d.before.status = .discovered → d.eligible = true)
      (config : d.config = getPolicyConfig settings) :
      WholeDiagnosis older d.before.id d.next.1 (.committed d.stmts :: (d.reads settings t ++ older))

/-- Why a case could not be diagnosed: it is not there or not in a status it is diagnosed
in, the AI has raised, or another transaction has moved the case. -/
inductive Undiagnosed (h : List Event) (db : Db) (caseId : Uuid) : Prop where
  | missing (read : .selected (.caseForDiagnosis caseId) none ∈ h)
  | undiagnosable (loaded : CaseForDiagnosis)
      (read : .selected (.caseForDiagnosis caseId) (some loaded) ∈ h)
      (status : loaded.recoveryCase.status ∉ diagnosableStatuses)
  | unanswered (context : PaymentRecoveryContext) (error : Raised)
      (answer : .recommended context (.error error) ∈ h)
  | moved (loaded : CaseForDiagnosis)
      (read : .selected (.caseForDiagnosis caseId) (some loaded) ∈ h)
      (outdated : db.Outdated loaded.recoveryCase)

/-- What a diagnosis has done when it ends: all of it, or nothing that is committed. -/
def DiagnosisEnded (h : List Event) (db : Db) (caseId : Uuid) (correlationId : String) :
    Outcome → Prop
  | .ok (.diagnosed response) =>
    WholeDiagnosis [.started (.diagnose caseId correlationId)] caseId response.caseStatus h
  | .ok _ => False
  | .error _ => commits h = [] ∧ Undiagnosed h db caseId

/-- A unique value was taken, or a reference is held by several customers. -/
def Faulty (h : List Event) : Prop :=
  (∃ sts, .refused sts .integrity ∈ h) ∨
    ∃ reference found, .selected (.customersByExternalReference reference) found ∈ h ∧
      reference ≠ "" ∧ 2 ≤ found.length

/-- The payment was looked up, and had no case. -/
def FoundUncased (h : List Event) (paymentId : Uuid) : Prop :=
  .selected (.caseByPayment paymentId) none ∈ h ∨
    ∃ limit, ∃ payments : List Payment,
      .selected (.failedPaymentsWithoutCase limit) payments ∈ h ∧
        ∃ payment ∈ payments, payment.id = paymentId

/-- The look-up of a payment is not forgotten. -/
theorem FoundUncased.mono {h h' : List Event} {paymentId : Uuid}
    (hf : FoundUncased h paymentId) (hsub : ∀ e ∈ h, e ∈ h') : FoundUncased h' paymentId :=
  hf.imp (hsub _) fun ⟨limit, payments, hread, hp⟩ => ⟨limit, payments, hsub _ hread, hp⟩

/-- An operation may open a case for a payment it reports itself, and for one it has found
without a case. -/
def MayOpen (h : List Event) (paymentId : Uuid) : Prop :=
  (∃ request correlationId, .started (.ingest request correlationId) ∈ h) ∨
    FoundUncased h paymentId

/-- Nor is the leave to open a case for it. -/
theorem MayOpen.mono {h h' : List Event} {paymentId : Uuid} (hm : MayOpen h paymentId)
    (hsub : ∀ e ∈ h, e ∈ h') : MayOpen h' paymentId :=
  -- The request, or the select, that gave the payment is still in the longer record.
  hm.imp (fun ⟨request, correlationId, hst⟩ => ⟨request, correlationId, hsub _ hst⟩)
    fun hf => hf.mono hsub

/-- What an operation asked for the case of one payment has done when it ends: the case it
answers with is there, and new if it says so. If it raises, the payment is not there or has
not failed, or the case was refused. -/
def CreationEnded (h : List Event) (db : Db) (paymentId : Uuid) : Outcome → Prop
  | .ok (.recoveryCaseCreated response) => response.paymentId = paymentId ∧
    (∃ c, db.CaseSeen c ∧ c.id = response.recoveryCaseId ∧ c.paymentId = paymentId) ∧
    (response.created = true → ∃ sts ∈ commits h, ∃ c, .insertCase c ∈ sts ∧
      c.paymentId = paymentId)
  | .ok _ => False
  | .error _ => .selected (.payment paymentId) none ∈ h ∨
    (∃ payment, .selected (.payment paymentId) (some payment) ∈ h ∧ payment.status ≠ .failed) ∨
    ∃ c, .refused [.insertCase c] .integrity ∈ h

/-- What a sweep has done when it ends: each payment it has found has a case. If it raises,
one of the cases was refused. -/
def SweepEnded (h : List Event) (db : Db) : Outcome → Prop
  | .ok (.discovered report) => ∃ limit, ∃ payments : List Payment,
    .selected (.failedPaymentsWithoutCase limit) payments ∈ h ∧ ∀ payment ∈ payments,
      ∃ c, db.CaseSeen c ∧ c.id ∈ report.caseIds ∧ c.paymentId = payment.id
  | .ok _ => False
  | .error _ => ∃ c, .refused [.insertCase c] .integrity ∈ h

/-- **How an operation may end.** -/
structure Ended (h : List Event) (db : Db) (outcome : Outcome) : Prop where
  mayEnd : (phase h).MayEnd
  /-- An execution that reports a link has recorded it, and for the case it was
  asked to execute. -/
  executed : ∀ caseId correlationId response, .started (.execute caseId correlationId) ∈ h →
    outcome = .ok (.executed response) → response.executed = true →
    ∃ recoveryCase attempt link id completedAt correlationId t,
      .committed (recordStmts recoveryCase attempt link id completedAt correlationId t) ∈ h ∧
        recoveryCase.id = caseId ∧ response.providerReference = some link.providerReference ∧
        response.amount = some link.amount
  lost : ∀ caseId correlationId, .started (.execute caseId correlationId) ∈ h →
    ¬ Acted h caseId → commits h = [] ∧ Lost h caseId outcome
  /-- A delivery that is answered has claimed its event, or found it claimed; an event
  without a type cannot be claimed. -/
  claimed : ∀ event correlationId, .started (.webhook event correlationId) ∈ h →
    event.eventType ≠ none → (∃ r, outcome = .ok r) → db.Claimed event.dedupKey
  /-- A delivery that raises or finds its event claimed has committed nothing; any other
  has committed one transaction. -/
  delivered : ∀ event correlationId, .started (.webhook event correlationId) ∈ h →
    Delivered h event outcome
  diagnosed : ∀ caseId correlationId, .started (.diagnose caseId correlationId) ∈ h →
    DiagnosisEnded h db caseId correlationId outcome
  /-- An ingestion answers with a payment under the id it was asked for. -/
  ingested : ∀ request correlationId response, .started (.ingest request correlationId) ∈ h →
    outcome = .ok (.paymentIngested response) → ∃ payment, db.PaymentSeen payment ∧
      payment.id = response.paymentId ∧ payment.providerPaymentId = request.providerPaymentId
  /-- An ingestion raises for one of two reasons. -/
  faulty : ∀ request correlationId e, .started (.ingest request correlationId) ∈ h →
    outcome = .error e → Faulty h
  created : ∀ paymentId correlationId, .started (.createCase paymentId correlationId) ∈ h →
    CreationEnded h db paymentId outcome
  swept : ∀ limit correlationId, .started (.discover limit correlationId) ∈ h →
    SweepEnded h db outcome
  /-- A delivery that has found its link and then an executing case has seen the case
  moved, by itself or by another. -/
  handled : ∀ event correlationId paymentLinkId link,
    .started (.webhook event correlationId) ∈ h →
    .selected (.paymentRequestByProviderReference paymentLinkId) (some link) ∈ h →
    ∃ reference found, [.selected (.caseForExecution link.recoveryCaseId) found,
        .selected (.paymentRequestByProviderReference reference) (some link)] <:+: h ∧
      ∀ loaded, found = some loaded → loaded.recoveryCase.status = .executing →
        db.Outdated loaded.recoveryCase
  /-- A cycle returns its report, or raises. -/
  cycled : ∀ budget correlationId, .started (.cycle budget correlationId) ∈ h →
    (∃ report, outcome = .ok (.cycled report) ∧ Nonempty (CycleRun budget report h)) ∨
      ∃ e, outcome = .error e

/-- **Why a flush is refused.** A stale update is one of the case in hand, and
another transaction has moved its version; a unique value is taken by a committed
row. A case is opened only where it may be. -/
structure Refused (h : List Event) (db : Db) (sts : List Stmt) (e : DbError) : Prop where
  stale : ∀ c, (phase h).case? = some c → e = .stale →
    ∀ r, db.recoveryCases.get? c.id = some r → r.version ≠ c.version
  integrity : ∀ c, (phase h).case? = some c → e = .integrity →
    ∃ st ∈ sts, Store.check st db = some .integrity
  opening : ∀ c, .insertCase c ∈ sts → MayOpen h c.paymentId

/-- The events an operation with record `h` may leave on the database `db`. Every
select reads what is committed: no operation reads a table it has itself written
and not committed. -/
def Permitted (h : List Event) (db : Db) : Event → Prop
  | .started _ => h = []
  | .selected query result => ∃ ranking, result = query.eval db ranking
  | .committed sts => Txn h db sts
  | .refused sts e => Refused h db sts e
  | .created caseId request made answer =>
    answersTruly made answer ∧ ∃ x attempt, Called h db caseId request x attempt
  | .found _ _ => ∃ c a made e, phase h = .called c a made (.error (.paymentProvider e)) ∧
      e.kind = .ambiguous
  | .ended (some outcome) => Ended h db outcome
  | _ => True

/-! ### The guarantee -/

/-- What an event does to the database. -/
def Event.applyTo (e : Event) (db : Db) : Db :=
  match e with
  | .committed sts => Store.applyAll sts db
  | _ => db

/-- A command of operation `t` that leaves the event `e`, or none. -/
structure Moves (t : Tid) (e : Option Event) (s s' : State) : Prop where
  history : s'.history = e.toList.map (fun e => (t, e)) ++ s.history
  db : s'.db = match e with
    | some e => e.applyTo s.db
    | none => s.db
  committed : ∀ sts, e = some (.committed sts) → sts = s.pendingOf t
  others : ∀ u, u ≠ t → s'.pendingOf u = s.pendingOf u
  isolated : s.Isolated → s'.Isolated

/-- What the database layer sees to at any moment. -/
structure State.Consistent (s : State) : Prop where
  isolated : s.Isolated
  distinct : s.db.Distinct

/-- **The guarantee of an operation.** A command leaves at most one event, and on a
consistent state a permitted one. -/
def Guarantee (t : Tid) (s s' : State) : Prop :=
  ∃ e, Moves t e s s' ∧ ∀ e', e = some e' → s.Consistent → Permitted (s.own t) s.db e'

end RecoverAI
