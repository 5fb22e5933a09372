import RecoverAI.Runs.Outcomes
import RecoverAI.Runs.Waiting
import RecoverAI.Services.Timeline

/-!
# Timelines

The timeline of a case lists its events by the times they carry, and not in the order in
which they were committed. The two agree about the changes of its status as long as the
clock rises from one reading to the next (`ClockRises`): the time of a change is read while
the row of the case is locked, hence after the commit of the change before it, whatever else
is going on. So the changes that a timeline shows lead from DISCOVERED to the status the case
has (`timeline_replays`).
-/

namespace RecoverAI

open Interleave Relation

variable {w : World} {t u : Tid} {caseId : Uuid}

/-! ### The clock -/

/-- The time an event has read. -/
def Event.clock? : Event → Option Time
  | .clock now => some now
  | _ => none

/-- The time has been read. -/
def IsRead (H : History) (time : Time) : Prop := ∃ p ∈ H, p.2.clock? = some time

theorem IsRead.suffix {H H' : History} {time : Time} (h : IsRead H time) (hs : H <:+ H') :
    IsRead H' time :=
  let ⟨p, hp, he⟩ := h
  ⟨p, hs.subset hp, he⟩

/-- Each reading of the clock is later than those before it. -/
def ClockRises (w : World) : Action → Prop
  | .run _ (.time now) => ∀ p ∈ w.shared.history, ∀ earlier ∈ p.2.clock?, earlier < now
  | _ => True

instance (w : World) (a : Action) : Decidable (ClockRises w a) := by
  unfold ClockRises
  split <;> infer_instance

theorem ClockRises.lt {i : Input} {now time : Time} (h : ClockRises w (.run t i))
    (hi : i = .time now) (hread : IsRead w.shared.history time) : time < now := by
  subst hi
  obtain ⟨p, hp, he⟩ := hread
  exact h p hp time he

/-! ### Events with their times -/

/-- The times of the changes of a case among some events. -/
def changeTimes (caseId : Uuid) (rows : List AuditEvent) : List Time :=
  (rows.filter fun row => row.entity = .recoveryCase caseId ∧ row.body.isChange = true).map
    AuditEvent.createdAt

section Rows

variable {sts : List Stmt} {rows rows' : List AuditEvent}

/-- The trail grows by the events that are committed. -/
theorem auditEvents_applyAll (db : Db) :
    (Store.applyAll sts db).auditEvents = db.auditEvents ++ rowsOf sts := by
  refine Store.applyAll_adds (fun db : Db => db.auditEvents) fun st db => ?_
  cases st with
  | insertAuditEvent row => rfl
  | _ => exact (List.append_nil _).symm

@[simp] theorem changeTimes_nil : changeTimes caseId [] = [] := rfl

theorem changeTimes_append :
    changeTimes caseId (rows ++ rows') = changeTimes caseId rows ++ changeTimes caseId rows' := by
  rw [changeTimes, List.filter_append, List.map_append]
  rfl

theorem mem_changeTimes {time : Time} : time ∈ changeTimes caseId rows ↔
    ∃ row ∈ rows, (row.entity = .recoveryCase caseId ∧ row.body.isChange = true) ∧
      row.createdAt = time := by
  simp only [changeTimes, List.mem_map, List.mem_filter, decide_eq_true_eq, and_assoc]

end Rows

/-! ### Sessions and the clock -/

/-- What is known of an event when it is recorded: its time has been read, and a change is one
of a case. -/
structure AuditEvent.Known (H : History) (row : AuditEvent) : Prop where
  read : IsRead H row.createdAt
  ofCase : row.body.isChange = true → ∃ caseId, row.entity = .recoveryCase caseId

theorem AuditEvent.Known.suffix {H H' : History} {row : AuditEvent} (h : row.Known H)
    (hs : H <:+ H') : row.Known H' := ⟨h.read.suffix hs, h.ofCase⟩

/-- What the sessions, the trail and the clock have to do with each other. -/
structure Stamped (g : Tid → Session) (s : State) : Prop where
  held : ∀ t, (g t).held = s.pendingOf t
  committed : ∀ row ∈ s.db.auditEvents, row.Known s.history
  pending : ∀ t, ∀ row ∈ rowsOf (g t).held, row.Known s.history
  stamp : ∀ t, ∀ now ∈ (g t).stamp, IsRead s.history now
  /-- Who has recorded a change of a case holds its row. -/
  locked : ∀ t caseId, changeTimes caseId (rowsOf (g t).held) ≠ [] →
    .recoveryCase caseId ∈ (g t).keys
  /-- The times of the changes of a case rise. -/
  settled : ∀ caseId, (changeTimes caseId s.db.auditEvents).Pairwise (· < ·)
  /-- They go on to rise with whoever holds its row. -/
  rising : ∀ t caseId, .recoveryCase caseId ∈ (g t).keys →
    (changeTimes caseId s.db.auditEvents ++ changeTimes caseId (rowsOf (g t).held) ++
      (g t).stamp.toList).Pairwise (· < ·)

namespace Stamped

variable {g : Tid → Session} {s s' : State} {x : Session}

theorem init : Stamped (fun _ => Session.idle) State.initial where
  held := fun _ => rfl
  committed := fun _ hrow => absurd hrow List.not_mem_nil
  pending := fun _ _ hrow => absurd hrow List.not_mem_nil
  stamp := fun _ now hnow => absurd hnow (Option.not_mem_none now)
  locked := fun _ _ h => absurd rfl h
  settled := fun _ => List.Pairwise.nil
  rising := fun _ _ h => absurd h List.not_mem_nil

/-- A new record of the same state. -/
theorem emit (h : Stamped g s) (t : Tid) (e : Event) : Stamped g (s.emit t e) := by
  have hs : s.history <:+ (s.emit t e).history := List.suffix_cons _ _
  exact { h with
    committed := fun row hrow => (h.committed row hrow).suffix hs
    pending := fun t row hrow => (h.pending t row hrow).suffix hs
    stamp := fun t now hnow => (h.stamp t now hnow).suffix hs }

/-- One session moves. What is to be shown is about this session, and that the others, where
they hold the row of a case, see none of its changes committed. -/
theorem update (h : Stamped g s) (hs : s.history <:+ s'.history)
    (hheld : x.held = s'.pendingOf t) (hothers : ∀ u, u ≠ t → s'.pendingOf u = s.pendingOf u)
    (hcommitted : ∀ row ∈ s'.db.auditEvents, row.Known s'.history)
    (hpending : ∀ row ∈ rowsOf x.held, row.Known s'.history)
    (hstamp : ∀ now ∈ x.stamp, IsRead s'.history now)
    (hlocked : ∀ caseId, changeTimes caseId (rowsOf x.held) ≠ [] → .recoveryCase caseId ∈ x.keys)
    (hsettled : ∀ caseId, (changeTimes caseId s'.db.auditEvents).Pairwise (· < ·))
    (hrising : ∀ caseId, .recoveryCase caseId ∈ x.keys →
      (changeTimes caseId s'.db.auditEvents ++ changeTimes caseId (rowsOf x.held) ++
        x.stamp.toList).Pairwise (· < ·))
    (hunseen : ∀ u, u ≠ t → ∀ caseId, .recoveryCase caseId ∈ (g u).keys →
      changeTimes caseId s'.db.auditEvents = changeTimes caseId s.db.auditEvents) :
    Stamped (Function.update g t x) s' := by
  refine ⟨(Function.forall_update_iff g fun u y => y.held = s'.pendingOf u).mpr ⟨hheld, ?_⟩,
    hcommitted,
    (Function.forall_update_iff g fun _ y => ∀ row ∈ rowsOf y.held, row.Known s'.history).mpr
      ⟨hpending, fun u _ row hrow => (h.pending u row hrow).suffix hs⟩,
    (Function.forall_update_iff g fun _ y => ∀ now ∈ y.stamp, IsRead s'.history now).mpr
      ⟨hstamp, fun u _ now hnow => (h.stamp u now hnow).suffix hs⟩,
    (Function.forall_update_iff g fun _ y => ∀ caseId, changeTimes caseId (rowsOf y.held) ≠ [] →
      .recoveryCase caseId ∈ y.keys).mpr ⟨hlocked, fun u _ => h.locked u⟩, hsettled,
    (Function.forall_update_iff g fun _ y => ∀ caseId, .recoveryCase caseId ∈ y.keys →
      (changeTimes caseId s'.db.auditEvents ++ changeTimes caseId (rowsOf y.held) ++
        y.stamp.toList).Pairwise (· < ·)).mpr ⟨hrising, fun u hu caseId hkey => ?_⟩⟩
  · intro u hu
    rw [h.held u, hothers u hu]
  · rw [hunseen u hu caseId hkey]
    exact h.rising u caseId hkey

/-- The transaction of a session is rolled back. -/
theorem rollback (h : Stamped g s) (t : Tid) :
    Stamped (Function.update g t Session.idle) (s.withTxns (s.toTxns.rollback t)) :=
  h.update List.suffix_rfl (Txns.rollback_pendingOf _ t).symm
    (fun _ hu => Txns.rollback_pendingOf_ne hu) h.committed
    (fun _ hrow => absurd hrow List.not_mem_nil)
    (fun now hnow => absurd hnow (Option.not_mem_none now)) (fun _ hne => absurd rfl hne)
    h.settled (fun _ hkey => absurd hkey List.not_mem_nil) fun _ _ _ _ => rfl

/-- A session reads the clock. -/
theorem now (h : Stamped g s) (t : Tid) {time : Time}
    (hlater : ∀ earlier, IsRead s.history earlier → earlier < time) :
    Stamped (Function.update g t ((g t).stamped time)) (s.emit t (.clock time)) := by
  have hs : s.history <:+ (s.emit t (.clock time)).history := List.suffix_cons _ _
  refine h.update hs (h.held t) (fun _ _ => rfl) (fun row hrow => (h.committed row hrow).suffix hs)
    (fun row hrow => (h.pending t row hrow).suffix hs) (fun now hnow => ?_) (h.locked t) h.settled
    (fun caseId hkey => ?_) fun _ _ _ _ => rfl
  · obtain rfl := Option.some.inj hnow
    exact ⟨_, List.mem_cons_self, rfl⟩
  · -- the new reading takes the place of the last one, and is later than every event
    refine List.pairwise_append.mpr ⟨(List.pairwise_append.mp (h.rising t caseId hkey)).1,
      List.pairwise_singleton _ _, fun earlier hearlier now hnow => ?_⟩
    obtain rfl := List.mem_singleton.mp hnow
    refine hlater earlier ?_
    rcases List.mem_append.mp hearlier with hearlier | hearlier
    · obtain ⟨row, hrow, -, rfl⟩ := mem_changeTimes.mp hearlier
      exact (h.committed row hrow).read
    · obtain ⟨row, hrow, -, rfl⟩ := mem_changeTimes.mp hearlier
      exact (h.pending t row hrow).read

/-- A session flushes statements that it may flush. -/
theorem flush (h : Stamped g s) (t : Tid) {sts : List Stmt} (haudits : (g t).Audits sts) :
    Stamped (Function.update g t ((g t).flushed sts)) (s.withTxns (s.toTxns.enlist t sts)) := by
  have hrows : rowsOf ((g t).flushed sts).held = rowsOf (g t).held ++ rowsOf sts :=
    rowsOf_append _ _
  -- a new change is of a case whose row has been held since before its time was read
  have hnew : ∀ caseId, changeTimes caseId (rowsOf sts) = [] ∨
      .recoveryCase caseId ∈ (g t).keys ∧
        changeTimes caseId (rowsOf sts) = (g t).stamp.toList := by
    intro caseId
    match hsts : rowsOf sts with
    | [] => exact .inl rfl
    | row :: rows =>
      have hnil : rows = [] := by
        have hlength := haudits.single
        rw [hsts, List.length_cons] at hlength
        exact List.eq_nil_of_length_eq_zero (by omega)
      subst hnil
      have hmem : row ∈ rowsOf sts := by simp [hsts]
      by_cases hrow : row.entity = .recoveryCase caseId ∧ row.body.isChange = true
      · refine .inr ⟨?_, ?_⟩
        · obtain ⟨id, hid, hkey⟩ := haudits.locked row hmem hrow.2
          obtain rfl := AuditEntity.recoveryCase.inj (hid.symm.trans hrow.1)
          exact hkey
        · rw [haudits.timed row hmem]
          simp [changeTimes, hrow]
      · exact .inl (by simp [changeTimes, hrow])
  refine h.update List.suffix_rfl ?_ (fun _ hu => Txns.enlist_pendingOf_ne hu) h.committed
    (fun row hrow => ?_) (fun now hnow => absurd hnow (Option.not_mem_none now))
    (fun caseId hne => ?_) h.settled (fun caseId hkey => ?_) fun _ _ _ _ => rfl
  · change (g t).held ++ sts = (s.toTxns.enlist t sts).pendingOf t
    rw [h.held t, Txns.enlist_pendingOf]
  · rw [hrows, List.mem_append] at hrow
    rcases hrow with hrow | hrow
    · exact h.pending t row hrow
    · refine ⟨h.stamp t _ (haudits.timed row hrow), fun hchange => ?_⟩
      obtain ⟨caseId, hentity, -⟩ := haudits.locked row hrow hchange
      exact ⟨caseId, hentity⟩
  · rw [hrows, changeTimes_append] at hne
    rw [Session.flushed_keys, List.mem_append]
    rcases hnew caseId with hnil | ⟨hkey, -⟩
    · rw [hnil, List.append_nil] at hne
      exact .inl (h.locked t caseId hne)
    · exact .inl hkey
  · change (_ ++ _ ++ []).Pairwise _
    rw [List.append_nil, hrows, changeTimes_append]
    rcases hnew caseId with hnil | ⟨hheld, hstamp⟩
    · rw [hnil, List.append_nil]
      by_cases hheld : .recoveryCase caseId ∈ (g t).keys
      · exact (List.pairwise_append.mp (h.rising t caseId hheld)).1
      · -- a row that has just been locked comes without changes of its case
        have hnone : changeTimes caseId (rowsOf (g t).held) = [] := by
          by_contra hne
          exact hheld (h.locked t caseId hne)
        change (changeTimes caseId s.db.auditEvents ++ _).Pairwise _
        rw [hnone, List.append_nil]
        exact h.settled caseId
    · rw [hstamp, ← List.append_assoc]
      exact h.rising t caseId hheld

/-- A session commits, while no other one holds a row that it holds. -/
theorem commit (h : Stamped g s) (t : Tid)
    (halone : ∀ u, u ≠ t → ∀ k ∈ (g u).keys, k ∉ (g t).keys) :
    Stamped (Function.update g t Session.idle) (s.withTxns (s.toTxns.commit t)) := by
  have hevents : (s.toTxns.commit t).db.auditEvents = s.db.auditEvents ++ rowsOf (g t).held := by
    rw [h.held t, Txns.commit_db, auditEvents_applyAll]
  have htimes : ∀ caseId, changeTimes caseId (s.toTxns.commit t).db.auditEvents =
      changeTimes caseId s.db.auditEvents ++ changeTimes caseId (rowsOf (g t).held) := by
    intro caseId
    rw [hevents, changeTimes_append]
  refine h.update List.suffix_rfl (Txns.commit_pendingOf _ t).symm
    (fun _ hu => Txns.commit_pendingOf_ne hu) (fun row hrow => ?_)
    (fun _ hrow => absurd hrow List.not_mem_nil)
    (fun now hnow => absurd hnow (Option.not_mem_none now)) (fun _ hne => absurd rfl hne)
    (fun caseId => ?_) (fun _ hkey => absurd hkey List.not_mem_nil) fun u hu caseId hkey => ?_
  · change row ∈ (s.toTxns.commit t).db.auditEvents at hrow
    rw [hevents, List.mem_append] at hrow
    exact hrow.elim (h.committed row) (h.pending t row)
  · change (changeTimes caseId (s.toTxns.commit t).db.auditEvents).Pairwise _
    rw [htimes]
    by_cases hkey : .recoveryCase caseId ∈ (g t).keys
    · exact (List.pairwise_append.mp (h.rising t caseId hkey)).1
    · have hnone : changeTimes caseId (rowsOf (g t).held) = [] := by
        by_contra hne
        exact hkey (h.locked t caseId hne)
      rw [hnone, List.append_nil]
      exact h.settled caseId
  · change changeTimes caseId (s.toTxns.commit t).db.auditEvents = _
    have hnone : changeTimes caseId (rowsOf (g t).held) = [] := by
      by_contra hne
      exact halone u hu _ hkey (h.locked t caseId hne)
    rw [htimes, hnone, List.append_nil]

/-- A command that leaves session and transactions as they are. -/
theorem same (h : Stamped g s) (t : Tid) (e : Event) :
    Stamped (Function.update g t (g t)) (s.emit t e) := by
  rw [Function.update_eq_self]
  exact h.emit t e

/-- One allowed command. -/
theorem exec {op : Op} {c : Cmd} {i : Input} {r : c.Reply} (h : Stamped g s) (t : Tid)
    (hallows : (discipline op).allows (g t) c) (he : exec t c i s = some (r, s'))
    (hlater : ∀ now, i = .time now → ∀ earlier, IsRead s.history earlier → earlier < now)
    (halone : ∀ u, u ≠ t → ∀ k ∈ (g u).keys, k ∉ (g t).keys) :
    Stamped (Function.update g t ((discipline op).next (g t) c r)) s' := by
  cases c <;> cases i <;> simp only [RecoverAI.exec] at he <;> try cases he
  case select.ranking => exact h.same t _
  case flush.go sts =>
    split at he <;> cases he
    · next y hy =>
      obtain ⟨-, ⟨e, he, -⟩ | ⟨-, -, rfl⟩⟩ := Txns.flush_cases hy
      · cases he
      · exact h.flush t hallows.2
    · next e y hy =>
      obtain ⟨-, ⟨-, -, -, rfl⟩ | ⟨he, -⟩⟩ := Txns.flush_cases hy
      · exact (h.rollback t).emit t _
      · cases he
  case commit.go => exact (h.commit t halone).emit t _
  case rollback.go => exact h.rollback t
  case now.time => exact h.now t (hlater _ rfl)
  case uuid4.uuid =>
    change Stamped (Function.update g t (g t)) s
    rw [Function.update_eq_self]
    exact h
  case getSettings.settings => exact h.same t _
  case getRecommendation.recommendation => exact h.same t _
  case createPaymentLink.created =>
    split at he <;> cases he
    exact h.same t _
  case findPaymentLinkByReference.found => exact h.same t _

end Stamped

/-- **With a clock that rises**, what the sessions record is in step with it. -/
theorem exists_stamped (hw : machine.ReachesVia ClockRises World.empty w) :
    ∃ g, Stamped g w.shared := by
  have hrule := Machine.invariant_of_obeys (m := discipline) (Q := Outcome.Clears) (I := Stamped)
    Op.obeys_discipline .init (fun g t op s h _ => h.emit t _)
    (fun g w t op c k i r s hw _ h ht he => expects_of_exec hw.reaches ht he (h.held t))
    (fun g w t op c i r s hw hok h hallows he => h.exec t hallows (machine_exec_eq_some.mp he).1
      (fun now hi earlier hread => hok.lt hi hread) fun u hu k hk hk' => ?_)
    (fun g t outcome s h => (h.rollback t).emit t _) hw
  · exact hrule.imp fun g hg => hg.2
  · -- a row is held by one session at most
    have hexclusive := (Reachable.ranked hw.reaches).exclusive u t k
    rw [Session.keys, h.held] at hk hk'
    exact hu (hexclusive hk hk')

/-! ### What a timeline shows -/

section Shown

variable {rendering : Rendering} {event : AuditEvent}

/-- The stored event is a change of a status. -/
def StoredEvent.isStatusChange (event : StoredEvent) : Bool :=
  event.eventType = "recovery_case_status_changed"

/-- The stored event is in the timeline of a case. -/
def StoredEvent.concerns (caseId : Uuid) (attemptIds : List Uuid) (event : StoredEvent) : Bool :=
  (event.entityType = "recovery_case" ∧ event.entityId = caseId) ∨
    (attemptIds ≠ [] ∧ event.entityType = "recovery_attempt" ∧ event.entityId ∈ attemptIds)

theorem shownChange_of_not_isStatusChange {event : StoredEvent} (h : event.isStatusChange = false) :
    shownChange event.eventType event.payload = none :=
  if_neg (of_decide_eq_false h)

/-- A stored event shows the change it was recorded with. -/
theorem shownChange_stored (h : event.body.isChange = true) :
    shownChange (event.stored rendering).eventType (event.stored rendering).payload =
      event.change?.map fun x => (x.1.value, x.2.value) := by
  obtain ⟨entity, body, actorType, correlationId, createdAt⟩ := event
  cases body with
  | recoveryCaseStatusChanged source target reason => rfl
  | _ => cases h

/-- Among recorded events, the changes in the timeline of a case are those of the case. -/
theorem AuditEvent.Known.concerns_iff {H : History} (h : event.Known H) {attemptIds : List Uuid} :
    ((event.stored rendering).concerns caseId attemptIds &&
        (event.stored rendering).isStatusChange) = true ↔
      event.entity = .recoveryCase caseId ∧ event.body.isChange = true := by
  rw [Bool.and_eq_true, StoredEvent.concerns, StoredEvent.isStatusChange, decide_eq_true_eq,
    decide_eq_true_eq]
  constructor
  · rintro ⟨hconcerns, htype⟩
    obtain ⟨source, target, reason, hbody⟩ := AuditBody.eventType_eq_statusChanged.mp htype
    have hchange : event.body.isChange = true := by rw [hbody]; rfl
    obtain ⟨id, hid⟩ := h.ofCase hchange
    -- an event of an attempt would not be of a case
    rcases hconcerns with ⟨-, hsame⟩ | ⟨-, hattempt, -⟩
    · rw [stored, hid] at hsame
      exact ⟨hid.trans (congrArg _ hsame), hchange⟩
    · rw [stored, hid] at hattempt
      simp [AuditEntity.typeName] at hattempt
  · rintro ⟨hid, hchange⟩
    refine ⟨.inl ?_, ?_⟩
    · rw [stored, hid]
      exact ⟨rfl, rfl⟩
    · rw [stored]
      cases hbody : event.body <;> rw [hbody] at hchange <;> first | rfl | cases hchange

end Shown

/-- The changes that the timeline of a case shows are those of the audit trail, in the order
of their commits. -/
theorem Stamped.changes_eq {g : Tid → Session} {s : State} (h : Stamped g s) {rendering : Rendering}
    {events : Table AuditEventRow}
    (hevents : (events.map AuditEventRow.toStoredEvent).Perm
      (s.db.auditEvents.map (AuditEvent.stored rendering))) (attemptIds ranking : List Uuid) :
    (AuditEventRepository.getCaseTimeline events caseId attemptIds ranking).filterMap
        (fun e => shownChange e.eventType e.payload) =
      (s.db.trail caseId).map fun x => (x.1.value, x.2.value) := by
  set shown := AuditEventRepository.getCaseTimeline events caseId attemptIds ranking with hshown
  set stored := s.db.auditEvents.map (AuditEvent.stored rendering) with hstored
  -- the rows, as they are stored, are the events that concern the case by their times
  have harranges : Arranges (fun e : StoredEvent => e.createdAt)
      (stored.filter (StoredEvent.concerns caseId attemptIds))
      (shown.map AuditEventRow.toStoredEvent) := by
    refine ⟨?_, ?_⟩
    · have hperm := (orderedBy_perm (fun e : AuditEventRow => e.createdAt) ranking
        (events.filter fun e => e.concerns caseId attemptIds)).map AuditEventRow.toStoredEvent
      refine hperm.trans ?_
      rw [show (fun e : AuditEventRow => e.concerns caseId attemptIds) =
        StoredEvent.concerns caseId attemptIds ∘ AuditEventRow.toStoredEvent from rfl,
        ← List.filter_map]
      exact hevents.filter _
    · rw [List.pairwise_map]
      exact pairwise_orderedBy _ _ _
  -- the changes among them are the changes of the case, whose times rise
  let own : AuditEvent → Bool := fun row => row.entity = .recoveryCase caseId ∧ row.body.isChange = true
  have hfilter : (stored.filter (StoredEvent.concerns caseId attemptIds)).filter
      StoredEvent.isStatusChange = (s.db.auditEvents.filter own).map (AuditEvent.stored rendering) := by
    rw [List.filter_filter, hstored, List.filter_map]
    congr 1
    refine List.filter_congr fun row hrow => Bool.eq_iff_iff.mpr ?_
    rw [Function.comp_apply, Bool.and_comm, (h.committed row hrow).concerns_iff]
    exact (decide_eq_true_iff).symm
  have hrising : ((stored.filter (StoredEvent.concerns caseId attemptIds)).filter
      StoredEvent.isStatusChange).Pairwise fun a b => a.createdAt < b.createdAt := by
    rw [hfilter, List.pairwise_map]
    exact List.pairwise_map.mp (h.settled caseId)
  have hquiet : ∀ l : List StoredEvent, l.filterMap (fun e => shownChange e.eventType e.payload) =
      (l.filter StoredEvent.isStatusChange).filterMap fun e => shownChange e.eventType e.payload := by
    intro l
    rw [List.filterMap_filter]
    congr 1
    funext e
    split
    · rfl
    · next he => exact shownChange_of_not_isStatusChange (Bool.eq_false_of_not_eq_true he)
  calc shown.filterMap (fun e => shownChange e.eventType e.payload)
      _ = (shown.map AuditEventRow.toStoredEvent).filterMap
          fun e => shownChange e.eventType e.payload := by rw [List.filterMap_map]; rfl
      _ = ((s.db.auditEvents.filter own).map (AuditEvent.stored rendering)).filterMap
          fun e => shownChange e.eventType e.payload := by
        rw [hquiet, harranges.filter_eq hrising, hfilter]
      _ = (s.db.auditEvents.filter own).filterMap
          fun e => e.change?.map fun x => (x.1.value, x.2.value) := by
        rw [List.filterMap_map]
        refine List.filterMap_congr fun row hrow => ?_
        exact shownChange_stored (of_decide_eq_true (List.mem_filter.mp hrow).2).2
      _ = (s.db.trail caseId).map fun x => (x.1.value, x.2.value) := by
        rw [trail_eq, Db.eventsOf, List.filterMap_filter, List.filterMap_filter, List.map_filterMap]
        congr 1
        funext row
        obtain ⟨entity, body, actorType, correlationId, createdAt⟩ := row
        cases body <;> simp [own, AuditBody.isChange, AuditEvent.change?]

/-- **Timelines replay to the state.** With a clock that rises, the timeline of a case shows its
changes of status as a chain from DISCOVERED to the status the case has when the events are
read, which may be later than the case itself was read, and whatever order the rows are in. -/
theorem timeline_replays {w w' : World} (hw : machine.ReachesVia ClockRises World.empty w)
    (hw' : machine.ReachesVia ClockRises w w') {c : RecoveryCase}
    (hc : c ∈ w.shared.db.recoveryCases) (rendering : Rendering) {events : Table AuditEventRow}
    (hevents : (events.map AuditEventRow.toStoredEvent).Perm
      (w'.shared.db.auditEvents.map (AuditEvent.stored rendering)))
    (attemptRanking ranking : List Uuid) :
    ∃ response changes status,
      getCaseTimeline w.shared.db events c.id attemptRanking ranking = .ok response ∧
      response.changes = changes.map (fun x => (x.1.value, x.2.value)) ∧
      Chain .discovered changes status ∧ w'.shared.db.statusOf c.id = some status := by
  have hreach : Reachable w := hw.reaches
  have hreach' : Reachable w' := hreach.trans hw'.reaches
  obtain ⟨g, hstamped⟩ := exists_stamped (hw.trans hw')
  -- the case is there, and it is still there later
  have hrow : w.shared.db.recoveryCases.get? c.id = some c := by
    rw [Reachable.db_eq hreach] at hc ⊢
    exact (Reachable.lawful hreach).distinct.caseId.get?_of_mem hc
  have htrail := (Reachable.lawful hreach').trailInv c.id
  rw [← Reachable.db_eq hreach'] at htrail
  have hevolves : w.shared.db.Evolves w'.shared.db := by
    rw [Reachable.db_eq hreach, Reachable.db_eq hreach']
    exact (extends_of_reaches hreach hw'.reaches).evolves
  obtain ⟨c', hrow', -⟩ := (Db.CaseSeen.of_get? hrow).evolves hevolves
  rw [hrow'] at htrail
  refine ⟨_, w'.shared.db.trail c.id, c'.status, by rw [getCaseTimeline, hrow], ?_, htrail, ?_⟩
  · rw [TimelineResponse.changes, List.filterMap_map]
    exact hstamped.changes_eq hevents _ _
  · rw [Db.statusOf, hrow']
    rfl

namespace Sample

/-- The same actions, with a clock that goes on from `n` at every reading. -/
def ticking : Time → List Action → List Action
  | _, [] => []
  | n, .run t (.time _) :: as => .run t (.time n) :: ticking (n + 1) as
  | n, a :: as => a :: ticking n as

/-- The stored form of the events, with ids in the order of their commits. -/
def rowsFrom (rendering : Rendering) : Uuid → List AuditEvent → Table AuditEventRow
  | _, [] => []
  | id, event :: events => { event.stored rendering with id } :: rowsFrom rendering (id + 1) events

theorem rowsFrom_stored (rendering : Rendering) (id : Uuid) (events : List AuditEvent) :
    (rowsFrom rendering id events).map AuditEventRow.toStoredEvent =
      events.map (AuditEvent.stored rendering) := by
  induction events generalizing id with
  | nil => rfl
  | cons event events ih => rw [rowsFrom, List.map_cons, ih]; rfl

end Sample

set_option maxRecDepth 10000 in
theorem timeline_replays_executed :
    ∃ response changes status,
      getCaseTimeline (World.empty.after (Sample.ticking 1 Sample.executed)).shared.db
        (Sample.rowsFrom Sample.rendering 100
          (World.empty.after (Sample.ticking 1 Sample.executed)).shared.db.auditEvents)
        3 [] [] = .ok response ∧
      response.changes = changes.map (fun x => (x.1.value, x.2.value)) ∧
      Chain .discovered changes status ∧
      (World.empty.after (Sample.ticking 1 Sample.executed)).shared.db.statusOf 3 = some status ∧
      status = .executing := by
  have hrun : machine.ReachesVia ClockRises World.empty
      (World.empty.after (Sample.ticking 1 Sample.executed)) :=
    World.reachesVia_after (by decide +kernel)
  have hcase : ∃ c ∈ (World.empty.after (Sample.ticking 1 Sample.executed)).shared.db.recoveryCases,
      c.id = 3 := by decide +kernel
  have hstatus : (World.empty.after (Sample.ticking 1 Sample.executed)).shared.db.statusOf 3 =
      some .executing := by decide +kernel
  obtain ⟨c, hc, hid⟩ := hcase
  obtain ⟨response, changes, status, h, hchanges, hchain, hlast⟩ :=
    timeline_replays hrun ReflTransGen.refl hc Sample.rendering
      (List.Perm.of_eq (Sample.rowsFrom_stored Sample.rendering 100 _)) [] []
  rw [hid] at h hlast
  exact ⟨response, changes, status, h, hchanges, hchain, hlast,
    Option.some.inj (hlast.symm.trans hstatus)⟩

end RecoverAI
