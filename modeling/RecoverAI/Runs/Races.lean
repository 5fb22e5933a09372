import RecoverAI.Runs.Ledger
import RecoverAI.Runs.Links

/-!
# The race between a link and its payment

A link exists at the provider before the execution that asked for it has recorded it. A
delivery that reports the payment in between finds no link, is answered, and has claimed
its event, so a redelivery is taken for a duplicate. Among the deliveries of a paid link
the one that counts is one that looks the link up once it is recorded: with such a
delivery the case is recovered, whatever the interleaving, and without it is not
(`recovered_iff_lookedUp`).
-/

namespace RecoverAI

open Interleave

variable {H H₀ newer older : History} {t u : Tid} {e : Event} {sts : List Stmt}
  {c : RecoveryCase} {reference : String} {amount : Int} {caseId : Uuid}

/-- The event reports the link as paid, with this amount. -/
structure ParsedWebhookEvent.PaysInFull (event : ParsedWebhookEvent) (reference : String)
    (amount : Int) : Prop where
  linkId : event.paymentLinkId = some reference
  status : event.paymentLinkStatus = some RecoveryPaymentRequestStatus.paid.value
  amountPaid : event.amountPaid = some amount

/-- One execution of a case, answered with a link, and otherwise deliveries that report
the payment of this link: all that happens in the part `H` of the record, which holds the
start of the execution. -/
structure Race (H H₀ : History) (t : Tid) (caseId : Uuid) (reference : String) (amount : Int) :
    Prop where
  started : ∃ correlationId, (t, .started (.execute caseId correlationId)) ∈ H
  executed : ∃ response : ExecutionResponse,
    (t, .ended (some (.ok (.executed response)))) ∈ H ++ H₀ ∧ response.executed = true ∧
      response.providerReference = some reference ∧ response.amount = some amount
  positive : 0 < amount
  others : ∀ p ∈ H, p.1 ≠ t → ∃ event correlationId,
    (p.1, .started (.webhook event correlationId)) ∈ H ++ H₀ ∧ event.PaysInFull reference amount
  handled : ∀ p ∈ H, ∃ outcome, (p.1, .ended (some outcome)) ∈ H ++ H₀

/-! The parts of a race, read off single events. -/

/-- The start of an execution of the case. -/
def Event.executes (caseId : Uuid) : Event → Bool
  | .started (.execute caseId' _) => caseId' = caseId
  | _ => false

/-- The end of an execution, with the link it reports. -/
def Event.reportsLink (reference : String) (amount : Int) : Event → Bool
  | .ended (some (.ok (.executed response))) => response.executed ∧
      response.providerReference = some reference ∧ response.amount = some amount
  | _ => false

/-- The start of a delivery of the payment. -/
def Event.paysInFull (reference : String) (amount : Int) : Event → Bool
  | .started (.webhook event _) => event.paymentLinkId = some reference ∧
      event.paymentLinkStatus = some RecoveryPaymentRequestStatus.paid.value ∧
      event.amountPaid = some amount
  | _ => false

theorem Event.executes_iff : e.executes caseId = true ↔
    ∃ correlationId, e = .started (.execute caseId correlationId) := by
  refine ⟨fun h => ?_, fun ⟨correlationId, he⟩ => by rw [he]; simp [executes]⟩
  unfold executes at h
  split at h
  · next caseId' correlationId =>
    obtain rfl : caseId' = caseId := by simpa using h
    exact ⟨correlationId, rfl⟩
  · cases h

theorem Event.reportsLink_iff : e.reportsLink reference amount = true ↔
    ∃ response, e = .ended (some (.ok (.executed response))) ∧ response.executed = true ∧
      response.providerReference = some reference ∧ response.amount = some amount := by
  refine ⟨fun h => ?_, fun ⟨response, he, h⟩ => by rw [he]; simpa [reportsLink] using h⟩
  unfold reportsLink at h
  split at h
  · next response => exact ⟨response, rfl, by simpa using h⟩
  · cases h

theorem Event.paysInFull_iff : e.paysInFull reference amount = true ↔
    ∃ event correlationId, e = .started (.webhook event correlationId) ∧
      event.PaysInFull reference amount := by
  refine ⟨fun h => ?_, fun ⟨event, correlationId, he, h⟩ => ?_⟩
  · unfold paysInFull at h
    split at h
    · next event correlationId =>
      obtain ⟨hlink, hstatus, hamount⟩ := of_decide_eq_true h
      exact ⟨event, correlationId, rfl, hlink, hstatus, hamount⟩
    · cases h
  · rw [he]
    exact decide_eq_true ⟨h.linkId, h.status, h.amountPaid⟩

/-- A race can be checked. -/
theorem race_iff : Race H H₀ t caseId reference amount ↔
    (∃ p ∈ H, p.1 = t ∧ p.2.executes caseId = true) ∧
    (∃ p ∈ H ++ H₀, p.1 = t ∧ p.2.reportsLink reference amount = true) ∧ 0 < amount ∧
    (∀ p ∈ H, p.1 ≠ t → ∃ q ∈ H ++ H₀, q.1 = p.1 ∧ q.2.paysInFull reference amount = true) ∧
    ∀ p ∈ H, ∃ q ∈ H ++ H₀, q.1 = p.1 ∧ q.2.isOutcome = true := by
  refine ⟨fun h => ⟨?_, ?_, h.positive, fun p hp hne => ?_, fun p hp => ?_⟩,
    fun ⟨hst, hend, hpositive, hothers, hhandled⟩ => ⟨?_, ?_, hpositive, fun p hp hne => ?_,
      fun p hp => ?_⟩⟩
  · obtain ⟨correlationId, hst⟩ := h.started
    exact ⟨_, hst, rfl, Event.executes_iff.mpr ⟨correlationId, rfl⟩⟩
  · obtain ⟨response, hend, hlink⟩ := h.executed
    exact ⟨_, hend, rfl, Event.reportsLink_iff.mpr ⟨response, rfl, hlink⟩⟩
  · obtain ⟨event, correlationId, hst, hpays⟩ := h.others p hp hne
    exact ⟨_, hst, rfl, Event.paysInFull_iff.mpr ⟨event, correlationId, rfl, hpays⟩⟩
  · obtain ⟨outcome, hend⟩ := h.handled p hp
    exact ⟨_, hend, rfl, rfl⟩
  · obtain ⟨⟨u, e⟩, hmem, hu, he⟩ := hst
    obtain ⟨correlationId, rfl⟩ := Event.executes_iff.mp he
    exact ⟨correlationId, hu ▸ hmem⟩
  · obtain ⟨⟨u, e⟩, hmem, hu, he⟩ := hend
    obtain ⟨response, rfl, hlink⟩ := Event.reportsLink_iff.mp he
    exact ⟨response, hu ▸ hmem, hlink⟩
  · obtain ⟨⟨u, e⟩, hmem, hu, he⟩ := hothers p hp hne
    obtain ⟨event, correlationId, rfl, hpays⟩ := Event.paysInFull_iff.mp he
    exact ⟨event, correlationId, hu ▸ hmem, hpays⟩
  · obtain ⟨⟨u, e⟩, hmem, hu, he⟩ := hhandled p hp
    obtain ⟨outcome, rfl⟩ := Event.exists_of_isOutcome he
    exact ⟨outcome, hu ▸ hmem⟩

instance (H H₀ : History) (t : Tid) (caseId : Uuid) (reference : String) (amount : Int) :
    Decidable (Race H H₀ t caseId reference amount) :=
  decidable_of_iff _ race_iff.symm

/-- A link is recorded under this reference. -/
def Db.HasLink (db : Db) (reference : String) : Prop :=
  ∃ l ∈ db.recoveryPaymentRequests, l.providerReference = reference

theorem Db.HasLink.evolves {db db' : Db} (h : db.HasLink reference) (hd : db.Distinct)
    (he : db.Evolves db') : db'.HasLink reference := by
  obtain ⟨l, hl, hreference⟩ := h
  obtain ⟨l', hl', hbecomes⟩ := he.paymentRequest _ _ (hd.linkId.get?_of_mem hl)
  exact ⟨l', Table.mem_of_get? hl', hbecomes.providerReference.trans hreference⟩

/-- A delivery has looked the link up, and it was recorded by then. -/
def LookedUp (H : History) (reference : String) : Prop :=
  ∃ (newer older : History) (u : Tid) (event : ParsedWebhookEvent) (correlationId : String)
    (r : Query.Result (.paymentRequestByProviderReference reference)),
    H = newer ++ (u, .selected (.paymentRequestByProviderReference reference) r) :: older ∧
      (u, .started (.webhook event correlationId)) ∈ older ∧ older.replay.HasLink reference

/-- Then it has found it. -/
theorem LookedUp.found (h : LookedUp H reference) (hl : Lawful H) :
    ∃ u event correlationId l, (u, .started (.webhook event correlationId)) ∈ H ∧
      (u, .selected (.paymentRequestByProviderReference reference) (some l)) ∈ H := by
  obtain ⟨newer, older, u, event, correlationId, r, rfl, hst, l, hmem, hreference⟩ := h
  obtain ⟨hlawful, ⟨ranking, hr⟩, -⟩ := hl.of_append.cons_inv
  have hfound : r = some l := by
    rw [hr, ← hreference]
    exact hlawful.distinct.linkReference.find?_of_mem hmem
  rw [hfound]
  exact ⟨u, event, correlationId, l, List.mem_append_right _ (List.mem_cons_of_mem _ hst),
    List.mem_append_right _ List.mem_cons_self⟩

/-- What was found was recorded. -/
theorem Lawful.link_of_read {l : RecoveryPaymentRequest} (h : Lawful H)
    (hread : (u, .selected (.paymentRequestByProviderReference reference) (some l)) ∈ H) :
    ∃ newer older : History, H = newer ++ (u, .selected (.paymentRequestByProviderReference
      reference) (some l)) :: older ∧ l ∈ older.replay.recoveryPaymentRequests ∧
      l.providerReference = reference := by
  obtain ⟨newer, older, rfl, -, ⟨ranking, hr⟩, -⟩ := h.split hread
  have hr : some l = older.replay.recoveryPaymentRequests.find?
      fun l => l.providerReference = reference := hr
  exact ⟨newer, older, rfl, List.mem_of_find?_eq_some hr.symm, by simpa using List.find?_some hr.symm⟩

theorem Lawful.lookedUp_of_read {l : RecoveryPaymentRequest} {event : ParsedWebhookEvent}
    {correlationId : String} (h : Lawful H)
    (hst : (u, .started (.webhook event correlationId)) ∈ H)
    (hread : (u, .selected (.paymentRequestByProviderReference reference) (some l)) ∈ H) :
    LookedUp H reference := by
  obtain ⟨newer, older, rfl, hl, hreference⟩ := h.link_of_read hread
  exact ⟨newer, older, u, event, correlationId, some l, rfl, h.started_mem (by simp) hst,
    l, hl, hreference⟩

theorem Lawful.linkSeen_of_read {l : RecoveryPaymentRequest} (h : Lawful H)
    (hread : (u, .selected (.paymentRequestByProviderReference reference) (some l)) ∈ H) :
    l.providerReference = reference ∧ H.replay.LinkSeen l := by
  obtain ⟨newer, older, rfl, hl, hreference⟩ := h.link_of_read hread
  have hrow := h.of_append.cons_inv.1.distinct.linkId.get?_of_mem hl
  exact ⟨hreference, (Db.LinkSeen.of_get? hrow).evolves h.evolves_of_split⟩

theorem LookedUp.cons {p : Tid × Event} (h : LookedUp H reference) : LookedUp (p :: H) reference := by
  obtain ⟨newer, older, u, event, correlationId, r, rfl, hrest⟩ := h
  exact ⟨p :: newer, older, u, event, correlationId, r, rfl, hrest⟩

/-! ### The record of the link -/

/-- Who records a link has called the provider for it. -/
theorem Lawful.inHand_of_record {attempt : RecoveryAttempt} {link : PaymentLinkSnapshot} {id : Uuid}
    {completedAt : Time} {correlationId : String} {now : Time}
    (h : Lawful ((t, .committed (recordStmts c attempt link id completedAt correlationId now)) :: H)) :
    (phase (H.own t)).case? = some c := by
  have hlinks := links_recordStmts c attempt link id completedAt correlationId now H.replay
  cases h.linkEffect with
  | same links =>
    rw [links] at hlinks
    exact absurd (congrArg List.length hlinks) (by simp)
  | recorded c' attempt' made link' id' completedAt' correlationId' now' eq inHand =>
    -- the two transactions begin with the update of one case
    rw [recordStmts, recordFlush, recordStmts, recordFlush] at eq
    have hhead := (List.cons.inj eq).1
    rw [(Stmt.updateCase.inj hhead).1]
    exact CaseStep.case?_of_inHand inHand
  | settled d known settles links =>
    rw [links] at hlinks
    exact absurd (congrArg List.length hlinks) (by simp [Table.update])

/-- A link is recorded under a reference that no other link has. -/
theorem Lawful.not_hasLink_of_record {attempt : RecoveryAttempt} {link : PaymentLinkSnapshot}
    {id : Uuid} {completedAt : Time} {correlationId : String} {now : Time}
    (h : Lawful ((t, .committed (recordStmts c attempt link id completedAt correlationId now)) :: H)) :
    ¬ H.replay.HasLink link.providerReference := by
  rintro ⟨l, hl, hreference⟩
  have hunique := h.distinct.linkReference
  rw [History.replay_cons, Event.applyTo_committed, links_recordStmts, Unique, List.map_append,
    List.nodup_append] at hunique
  exact hunique.2.2 _ (List.mem_map_of_mem hl) _ (List.mem_singleton_self _) hreference

/-! ### From the record on -/

theorem RecoveryPaymentRequestStatus.value_injective {st st' : RecoveryPaymentRequestStatus}
    (h : st.value = st'.value) : st = st' := by
  have hst := RecoveryPaymentRequestStatus.ofValue?_value st
  rw [h, RecoveryPaymentRequestStatus.ofValue?_value st'] at hst
  exact (Option.some.inj hst).symm

/-- What a delivery of a paid link observes. -/
theorem Delivery.observed_of_paysInFull {d : Delivery} {h : List Event} {db : Db}
    (known : d.Known h db) (hpays : d.event.PaysInFull reference amount) (hpositive : 0 < amount) :
    d.paymentLinkId = reference ∧ d.observed.status = .paid ∧ d.observed.amountPaid = amount := by
  refine ⟨?_, ?_, ?_⟩
  · have hlink := known.linkId
    rw [hpays.linkId] at hlink
    exact (Option.some.inj hlink).symm
  · have hstatus := known.status
    rw [hpays.status] at hstatus
    exact (RecoveryPaymentRequestStatus.value_injective (Option.some.inj hstatus)).symm
  · have hne : amount ≠ 0 := by omega
    change (d.event.amountPaid.filter (· ≠ 0)).getD _ = amount
    rw [hpays.amountPaid, Option.filter_some, if_pos (by simpa using hne)]
    rfl

/-- The link is recorded, with this amount; its case waits as the record left it, or is
recovered for the amount, after a delivery has found the link. -/
structure AfterRecord (H : History) (c : RecoveryCase) (reference : String) (amount : Int) :
    Prop where
  link : ∃ l ∈ H.replay.recoveryPaymentRequests, l.providerReference = reference ∧
    l.recoveryCaseId = c.id ∧ l.amount = amount
  state : H.replay.recoveryCases.get? c.id = some c ∧ NotInHand H c ∨
    (∃ c', H.replay.recoveryCases.get? c.id = some c' ∧ c'.status = .recovered ∧
      c'.recoveredAmount = amount) ∧ LookedUp H reference

/-- **Deliveries of a paid link, and nothing else, may settle its case.** -/
theorem AfterRecord.cons (ha : AfterRecord H c reference amount) (h : Lawful ((u, e) :: H))
    (hexecuting : c.status = .executing) (hzero : c.recoveredAmount = 0) (hpositive : 0 < amount)
    (hpays : ∀ event correlationId, (u, .started (.webhook event correlationId)) ∈ H →
      event.PaysInFull reference amount) :
    AfterRecord ((u, e) :: H) c reference amount := by
  obtain ⟨l, hl, hreference, hcase, hamount⟩ := ha.link
  have hdistinct := h.cons_inv.1.distinct
  have hlink : ∃ l ∈ (History.replay ((u, e) :: H)).recoveryPaymentRequests,
      l.providerReference = reference ∧ l.recoveryCaseId = c.id ∧ l.amount = amount := by
    obtain ⟨l', hl', hbecomes⟩ :=
      h.evolves_cons.paymentRequest _ _ (hdistinct.linkId.get?_of_mem hl)
    exact ⟨l', Table.mem_of_get? hl', hbecomes.providerReference.trans hreference,
      hbecomes.recoveryCaseId.trans hcase, hbecomes.amount.trans hamount⟩
  refine ⟨hlink, ?_⟩
  rcases ha.state with ⟨hrow, hhand⟩ | ⟨⟨c', hrow, hrecovered, hcredited⟩, hlooked⟩
  · cases h.waitStep hrow hexecuting hhand with
    | waits row notInHand => exact .inl ⟨row, notInHand⟩
    | recovered d now now' eq known paid loaded row =>
      have hst := History.mem_own.mp known.started
      obtain ⟨rfl, -, hpaid⟩ := d.observed_of_paysInFull known (hpays _ _ hst) hpositive
      refine .inr ⟨⟨d.recovered, row, rfl, ?_⟩, ?_⟩
      · change d.loaded.recoveryCase.recoveredAmount + d.observed.amountPaid = amount
        rw [loaded, hzero, hpaid, Int.zero_add]
      · have hread := known.reads.subset (List.mem_cons_of_mem _ List.mem_cons_self)
        exact (h.cons_inv.1.lookedUp_of_read hst (History.mem_own.mp hread)).cons
    | failed d attempt now now' eq known unpaid loaded row =>
      -- the event pays the amount the link was recorded with
      have hst := History.mem_own.mp known.started
      obtain ⟨rfl, hstatus, hpaid⟩ := d.observed_of_paysInFull known (hpays _ _ hst) hpositive
      obtain ⟨row, hseen, hbecomes⟩ := known.linkSeen
      have hsame : row = l := hdistinct.linkReference.eq_of_mem (Table.mem_of_get? hseen) hl
        ((hbecomes.providerReference.trans known.reference).trans hreference.symm)
      refine absurd ⟨hstatus, ?_⟩ unpaid
      change d.link.amount ≤ d.observed.amountPaid
      rw [hpaid, ← hamount, ← hsame, hbecomes.amount]
  · exact .inr ⟨⟨c', h.terminal_cons hrow (by rw [hrecovered]; rfl), hrecovered, hcredited⟩,
      hlooked.cons⟩

theorem AfterRecord.append (ha : AfterRecord older c reference amount)
    (h : Lawful (newer ++ older)) (hexecuting : c.status = .executing)
    (hzero : c.recoveredAmount = 0) (hpositive : 0 < amount)
    (hpays : ∀ p ∈ newer, ∀ event correlationId,
      (p.1, .started (.webhook event correlationId)) ∈ newer ++ older →
      event.PaysInFull reference amount) :
    AfterRecord (newer ++ older) c reference amount := by
  induction newer with
  | nil => exact ha
  | cons p newer ih =>
    have hl : Lawful (newer ++ older) := h.cons_inv.1
    refine (ih hl fun p' hp' event correlationId hst => ?_).cons h hexecuting hzero hpositive
      fun event correlationId hst => ?_
    · exact hpays p' (List.mem_cons_of_mem _ hp') event correlationId (List.mem_cons_of_mem _ hst)
    · exact hpays p List.mem_cons_self event correlationId (List.mem_cons_of_mem _ hst)

/-- The record of a link, as the execution leaves it. -/
theorem Lawful.afterRecord {attempt : RecoveryAttempt} {link : PaymentLinkSnapshot} {id : Uuid}
    {completedAt : Time} {correlationId : String} {now : Time}
    (h : Lawful ((t, .committed (recordStmts c attempt link id completedAt correlationId now)) :: H)) :
    AfterRecord ((t, .committed (recordStmts c attempt link id completedAt correlationId now)) :: H)
      c.recorded link.providerReference link.amount where
  link := by
    refine ⟨paymentRequestOf id c attempt link, ?_, rfl, rfl, rfl⟩
    rw [History.replay_cons, Event.applyTo_committed, links_recordStmts]
    exact List.mem_append_right _ List.mem_cons_self
  state := .inl (h.notInHand_of_record h.inHand_of_record).2

/-- Whoever finds the link in a record finds it after its record. -/
theorem Lawful.suffix_of_hasLink {p : Tid × Event} (h : Lawful H)
    (hrecord : p :: older <:+ H) (hnot : ¬ older.replay.HasLink reference) (hnewer : newer <:+ H)
    (hlink : newer.replay.HasLink reference) : ∃ middle, newer = middle ++ p :: older := by
  rcases List.suffix_or_suffix_of_suffix hrecord hnewer with ⟨middle, rfl⟩ | hsuffix
  · exact ⟨middle, rfl⟩
  · rcases List.suffix_cons_iff.mp hsuffix with rfl | ⟨middle, rfl⟩
    · exact ⟨[], rfl⟩
    · -- the link would have been recorded before
      obtain ⟨front, rfl⟩ := hrecord
      have hl : Lawful (middle ++ newer) := h.of_append.cons_inv.1
      exact absurd (hlink.evolves hl.of_append.distinct hl.evolves_of_append) hnot

/-- An execution that reports a link has recorded it, in the part of the record that
holds its start. -/
theorem Race.record {w : World} (hw : Reachable w) (hsplit : w.shared.history = H ++ H₀)
    (hrace : Race H H₀ t caseId reference amount) :
    ∃ (newer middle : History) (c : RecoveryCase) (attempt : RecoveryAttempt)
      (link : PaymentLinkSnapshot) (id : Uuid) (completedAt : Time) (correlationId : String)
      (now : Time),
      H ++ H₀ = newer ++ ((t, .committed (recordStmts c attempt link id completedAt correlationId
        now)) :: (middle ++ H₀)) ∧ (∀ p ∈ newer, p ∈ H) ∧ c.id = caseId ∧
      link.providerReference = reference ∧ link.amount = amount := by
  obtain ⟨correlationId, hst⟩ := hrace.started
  obtain ⟨response, hended, hexecuted, hreference, hamount⟩ := hrace.executed
  have hl : Lawful (H ++ H₀) := hsplit ▸ Reachable.lawful hw
  -- the record is among the events of the execution
  obtain ⟨newer, older, hends, -, hp, -⟩ := Reachable.own_of_ended hw (hsplit ▸ hended)
  have hst' : (t, .started (.execute caseId correlationId)) ∈ older := by
    have hlawful := Reachable.lawful hw
    rw [hends] at hlawful
    refine hlawful.started_mem (by simp) ?_
    rw [← hends, hsplit]
    exact List.mem_append_left _ hst
  obtain ⟨c, attempt, link, id, completedAt, correlationId', now, hmem, hid, href, hamt⟩ :=
    hp.executed caseId correlationId response (History.mem_own.mpr hst') rfl hexecuted
  have hmem : (t, .committed (recordStmts c attempt link id completedAt correlationId' now)) ∈
      H ++ H₀ := by
    rw [← hsplit, hends]
    exact List.mem_append_right _ (List.mem_cons_of_mem _ (History.mem_own.mp hmem))
  -- and stands in front of the start
  obtain ⟨front, back, rfl⟩ := List.append_of_mem hst
  have hfirst : History.own (back ++ H₀) t = [] := by
    rw [List.append_assoc, List.cons_append] at hl
    exact hl.of_append.cons_inv.2.1
  have hfront : (t, .committed (recordStmts c attempt link id completedAt correlationId' now)) ∈
      front := by
    rw [List.append_assoc, List.cons_append] at hmem
    rcases List.mem_append.mp hmem with hmem | hmem
    · exact hmem
    · rcases List.mem_cons.mp hmem with hmem | hmem
      · cases hmem
      · have hown := History.mem_own.mpr hmem
        rw [hfirst] at hown
        cases hown
  obtain ⟨front, middle, rfl⟩ := List.append_of_mem hfront
  rw [hreference, Option.some.injEq] at href
  rw [hamount, Option.some.injEq] at hamt
  refine ⟨front, middle ++ (t, .started (.execute caseId correlationId)) :: back, c, attempt, link,
    id, completedAt, correlationId', now, by simp, fun p hp => ?_, hid, href.symm, hamt.symm⟩
  exact List.mem_append_left _ (List.mem_append_left _ hp)

/-- A delivery that has found the link and ended has seen the case of the link moved. -/
theorem AfterRecord.recovered_of_handled {p : Tid × Event} {l : RecoveryPaymentRequest}
    {reference' : String} {found : Option CaseForExecution} {ending : History}
    (h : Lawful (newer ++ p :: older)) (hnot : ¬ older.replay.HasLink reference)
    (hexecuting : c.status = .executing)
    (hstate : ∀ front back, newer = front ++ back → AfterRecord (back ++ p :: older) c reference amount)
    (hending : ending <:+ newer ++ p :: older) (hreference : l.providerReference = reference)
    (hread : [.selected (.caseForExecution l.recoveryCaseId) found,
      .selected (.paymentRequestByProviderReference reference') (some l)] <:+: ending.own u)
    (hout : ∀ loaded, found = some loaded → loaded.recoveryCase.status = .executing →
      ending.replay.Outdated loaded.recoveryCase) :
    ∃ c', (History.replay (newer ++ p :: older)).recoveryCases.get? c.id = some c' ∧
      c'.status = .recovered ∧ c'.recoveredAmount = amount := by
  obtain ⟨front, hfront⟩ := hending
  have hlawful : Lawful ending := (hfront ▸ h).of_append
  -- the delivery has read the case right after the link
  obtain ⟨es, es', hown⟩ := hread
  rw [List.append_assoc, List.cons_append, List.cons_append, List.nil_append] at hown
  obtain ⟨newer', older', rfl, hown'⟩ := History.split_of_own hown.symm
  have hlink : (u, .selected (.paymentRequestByProviderReference reference') (some l)) ∈ older' := by
    refine History.mem_own.mp ?_
    rw [hown']
    exact List.mem_cons_self
  obtain ⟨hl', ⟨ranking, hfound⟩, -⟩ := hlawful.of_append.cons_inv
  obtain ⟨-, l', hrow, hbecomes⟩ := hl'.linkSeen_of_read hlink
  have hsame := hbecomes.providerReference.trans hreference
  have hsuffix : older' <:+ newer ++ p :: older := by
    refine ⟨front ++ (newer' ++ [(u, .selected (.caseForExecution l.recoveryCaseId) found)]), ?_⟩
    rw [← hfront]
    simp
  obtain ⟨middle, rfl⟩ := h.suffix_of_hasLink ⟨newer, rfl⟩ hnot hsuffix
    ⟨l', Table.mem_of_get? hrow, hsame⟩
  obtain ⟨front', hfront'⟩ := hsuffix
  rw [← List.append_assoc, List.append_cancel_right_eq] at hfront'
  have hafter := hstate front' middle hfront'.symm
  have hwhole : Extends (fun _ _ _ => True) (middle ++ p :: older) (newer ++ p :: older) := by
    rw [← hfront', List.append_assoc] at h ⊢
    exact h.extends_of_append
  rcases hafter.state with ⟨hwaits, -⟩ | ⟨⟨c', hc', hrecovered, hcredited⟩, -⟩
  · -- it has found the case waiting, so another transaction has moved it since
    obtain ⟨l'', hl'', hreference'', hcase, -⟩ := hafter.link
    have heq : l' = l'' := hl'.distinct.linkReference.eq_of_mem (Table.mem_of_get? hrow) hl''
      (hsame.trans hreference''.symm)
    have hid : l.recoveryCaseId = c.id := by
      rw [← hbecomes.recoveryCaseId, heq, hcase]
    rw [hid] at hfound
    obtain ⟨loaded, hloaded⟩ := Option.isSome_iff_exists.mp
      (hl'.caseForExecution_isSome (by rw [hwaits]; rfl) ranking)
    have hrow' := (Db.caseForExecution_eq_some hloaded).1
    rw [hwaits, Option.some.injEq] at hrow'
    have hmoved := hout loaded (hfound.trans hloaded) (by rw [← hrow']; exact hexecuting)
    rw [← hrow'] at hmoved
    have hmoved : (History.replay (newer ++ p :: older)).Outdated c := by
      rw [← hfront] at h ⊢
      exact hmoved.evolves h.evolves_of_append
    obtain ⟨r, hr, hlt⟩ := hmoved
    rcases (hstate [] newer rfl).state with ⟨hstill, -⟩ | ⟨hrecovered, -⟩
    · rw [hstill, Option.some.injEq] at hr
      rw [← hr] at hlt
      exact absurd hlt (lt_irrefl _)
    · exact hrecovered
  · exact ⟨c', hwhole.terminal hl' hc' (by rw [hrecovered]; rfl), hrecovered, hcredited⟩

/-- **A payment is not lost exactly if it is looked up in time.** When the execution and
all deliveries of the race have ended, the case is recovered for the amount if and only
if one of the deliveries has looked the link up after it was recorded. -/
theorem recovered_iff_lookedUp {w : World} (hw : Reachable w) (hsplit : w.shared.history = H ++ H₀)
    (hrace : Race H H₀ t caseId reference amount) :
    (∃ c, w.shared.db.recoveryCases.get? caseId = some c ∧ c.status = .recovered ∧
      c.recoveredAmount = amount) ↔ LookedUp w.shared.history reference := by
  have hwhole : Lawful (H ++ H₀) := hsplit ▸ Reachable.lawful hw
  obtain ⟨newer, middle, c, attempt, link, id, completedAt, correlationId, now, hrecord, hnewer, rfl,
    rfl, rfl⟩ := hrace.record hw hsplit
  have hl := hrecord ▸ hwhole
  have hrec := hl.of_append
  have hnot := hrec.not_hasLink_of_record
  have hexecuting : c.status = .executing := executing_of_phase hrec.inHand_of_record
  have hzero : c.recoveredAmount = 0 :=
    (hrec.cons_inv.1.caseInv (hrec.notInHand_of_record hrec.inHand_of_record).1).unrecovered
      (by rw [hexecuting]; simp)
  -- what the record leaves is settled by the deliveries of the race only
  have hstate : ∀ front back, newer = front ++ back → AfterRecord (back ++ (t, .committed
      (recordStmts c attempt link id completedAt correlationId now)) :: (middle ++ H₀)) c.recorded
      link.providerReference link.amount := by
    rintro front back rfl
    rw [List.append_assoc] at hl hrecord
    refine hrec.afterRecord.append hl.of_append hexecuting hzero hrace.positive
      fun p hp event correlationId' hst => ?_
    have hst : (p.1, .started (.webhook event correlationId')) ∈ H ++ H₀ := by
      rw [hrecord]
      exact List.mem_append_right _ hst
    have hne : p.1 ≠ t := by
      intro he
      obtain ⟨correlationId'', hst'⟩ := hrace.started
      rw [he] at hst
      cases hwhole.eq_of_started hst (List.mem_append_left _ hst')
    obtain ⟨event', correlationId'', hst', hpays⟩ :=
      hrace.others p (hnewer p (List.mem_append_right _ hp)) hne
    obtain ⟨rfl, -⟩ := Op.webhook.inj (hwhole.eq_of_started hst hst')
    exact hpays
  rw [Reachable.db_eq hw, hsplit]
  constructor
  · rintro ⟨c', hrow, hrecovered, -⟩
    rw [hrecord] at hrow ⊢
    rcases (hstate [] newer rfl).state with ⟨hwaits, -⟩ | ⟨-, hlooked⟩
    · have hwaits : Table.get? _ c.id = some c.recorded := hwaits
      rw [hwaits, Option.some.injEq] at hrow
      rw [← hrow] at hrecovered
      exact absurd (hexecuting.symm.trans hrecovered) (by simp)
    · exact hlooked
  · intro hlooked
    obtain ⟨u, event, correlationId', l, hst, hread⟩ := hlooked.found hwhole
    -- a delivery of the race has found the link
    have hin : (u, .selected (.paymentRequestByProviderReference link.providerReference) (some l)) ∈
        H := by
      refine (List.mem_append.mp hread).resolve_right fun hbefore => hnot ?_
      have hl₀ : Lawful (middle ++ H₀) := hrec.cons_inv.1
      obtain ⟨hreference, l', hrow, hbecomes⟩ := hl₀.of_append.linkSeen_of_read hbefore
      have hhas : (History.replay H₀).HasLink link.providerReference :=
        ⟨l', Table.mem_of_get? hrow, hbecomes.providerReference.trans hreference⟩
      exact hhas.evolves hl₀.of_append.distinct hl₀.evolves_of_append
    obtain ⟨outcome, hended⟩ := hrace.handled _ hin
    obtain ⟨front, ending, hends, -, hp, hown⟩ := Reachable.own_of_ended hw (hsplit ▸ hended)
    rw [hsplit] at hends hown
    have hbefore : ∀ e, (u, e) ∈ H ++ H₀ → (∀ o, e ≠ .ended o) → (u, e) ∈ ending := by
      intro e he hne
      have he := History.mem_own.mpr he
      rw [hown] at he
      exact History.mem_own.mp ((List.mem_cons.mp he).resolve_left (hne _))
    have hst := hbefore _ hst (by simp)
    have hread := hbefore _ hread (by simp)
    obtain ⟨reference', found, hinfix, hout⟩ := hp.handled event correlationId' _ l
      (History.mem_own.mpr hst) (History.mem_own.mpr hread)
    have hsuffix : ending <:+ newer ++ (t, .committed (recordStmts c attempt link id completedAt
        correlationId now)) :: (middle ++ H₀) := by
      rw [← hrecord, hends]
      exact (List.suffix_cons _ _).trans (List.suffix_append _ _)
    rw [hrecord]
    have hexecuting : c.recorded.status = .executing := hexecuting
    have hrecovered := AfterRecord.recovered_of_handled hl hnot hexecuting hstate hsuffix
      (((hends ▸ hwhole).of_append.cons_inv.1.linkSeen_of_read hread).1) hinfix hout
    exact hrecovered

namespace Sample

/-- The payment is reported before the link is recorded. -/
def paidEarly : List Action :=
  approved ++ [.start (.execute 3 "c")] ++ part 2 (claim ++ attempt 10 11 ++ call "L") ++
    alone 3 (.webhook (event "k" "L" "paid" (some 500)) "c") (deliver ++ audit ++ [.go]) ++
    part 2 (record 12) ++ [.finish 2]

/-- And again afterwards, as the same event or as another one. -/
def paidAgain (dedupKey : String) (is : List Input) : List Action :=
  paidEarly ++ alone 4 (.webhook (event dedupKey "L" "paid" (some 500)) "c") is

/-- What has happened since the case was approved, and what had happened by then. -/
def sinceApproval (H : History) : History := H.takeWhile fun p => p.1 ≠ 1

def untilApproval (H : History) : History := H.dropWhile fun p => p.1 ≠ 1

end Sample

set_option maxRecDepth 10000 in
theorem recovered_iff_lookedUp_paidAgain :
    LookedUp (World.empty.after (Sample.paidAgain "k'" (Sample.deliver ++
      Sample.settle))).shared.history "L" := by
  have hrace : Race
      (Sample.sinceApproval (World.empty.after (Sample.paidAgain "k'" (Sample.deliver ++
        Sample.settle))).shared.history)
      (Sample.untilApproval (World.empty.after (Sample.paidAgain "k'" (Sample.deliver ++
        Sample.settle))).shared.history) 2 3 "L" 500 := by decide +kernel
  have hcase : ((World.empty.after (Sample.paidAgain "k'" (Sample.deliver ++
      Sample.settle))).shared.db.recoveryCases.get? 3).any
      (fun c => c.status = .recovered ∧ c.recoveredAmount = 500) = true := by decide +kernel
  obtain ⟨c, hc, hrecovered⟩ := Option.any_eq_true _ _ |>.mp hcase
  exact (recovered_iff_lookedUp (World.reachable_after _) List.takeWhile_append_dropWhile.symm
    hrace).mp ⟨c, hc, of_decide_eq_true hrecovered⟩

set_option maxRecDepth 10000 in
/-- The redelivery of the event is a duplicate: the link is paid, and its case is still
executing. -/
theorem paidAgain_notRecovered :
    Reachable (World.empty.after (Sample.paidAgain "k" [.ranking []])) ∧
    (World.empty.after (Sample.paidAgain "k" [.ranking []])).shared.history =
      Sample.sinceApproval (World.empty.after (Sample.paidAgain "k" [.ranking []])).shared.history ++
      Sample.untilApproval (World.empty.after (Sample.paidAgain "k" [.ranking []])).shared.history ∧
    Race
      (Sample.sinceApproval (World.empty.after (Sample.paidAgain "k" [.ranking []])).shared.history)
      (Sample.untilApproval (World.empty.after (Sample.paidAgain "k" [.ranking []])).shared.history)
      2 3 "L" 500 ∧
    (World.empty.after (Sample.paidAgain "k" [.ranking []])).shared.db.statusOf 3 =
      some .executing :=
  ⟨World.reachable_after _, List.takeWhile_append_dropWhile.symm, by decide +kernel,
    by decide +kernel⟩

end RecoverAI
