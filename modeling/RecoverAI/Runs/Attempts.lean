import RecoverAI.Runs.Links

/-!
# Attempts, links and the counter of a case

An execution notes its attempt in one transaction and concludes it in a later one: with a
link, and then the case counts it, or without. Between the two the attempt is in hand
(`Phase.hand?`), and nobody else has it. So the attempts that succeeded, the links and the
counter stay in step (`Aligned`, `Counted`), wherever an execution stops.
-/

namespace RecoverAI

open Interleave

variable {H : History} {t u : Tid} {e : Event} {sts : List Stmt}

/-! ### Entries -/

/-- What of an attempt is counted. -/
structure AttemptEntry where
  attemptId : Uuid
  caseId : Uuid
  status : RecoveryAttemptStatus

/-- What of a link is counted. -/
structure LinkEntry where
  caseId : Uuid
  attemptId : Uuid

/-- What of the attempt is counted. -/
def RecoveryAttempt.entry (a : RecoveryAttempt) : AttemptEntry := ⟨a.id, a.recoveryCaseId, a.status⟩

/-- What of the link is counted. -/
def RecoveryPaymentRequest.entry (l : RecoveryPaymentRequest) : LinkEntry :=
  ⟨l.recoveryCaseId, l.recoveryAttemptId⟩

namespace Db

/-- The attempts as they are counted. -/
def attemptEntries (db : Db) : List AttemptEntry := db.recoveryAttempts.map RecoveryAttempt.entry

/-- The links as they are counted. -/
def linkEntries (db : Db) : List LinkEntry :=
  db.recoveryPaymentRequests.map RecoveryPaymentRequest.entry

/-- Statements add the links they insert. -/
theorem linkEntries_applyAll (sts : List Stmt) (db : Db) :
    (Store.applyAll sts db).linkEntries =
      db.linkEntries ++ (sts.filterMap Stmt.linkInsert?).map RecoveryPaymentRequest.entry := by
  rw [List.map_filterMap]
  refine Store.applyAll_adds Db.linkEntries fun st db => ?_
  cases st with
  | insertPaymentRequest l => exact List.map_append
  -- An update of a link changes neither its case nor its attempt.
  | updatePaymentRequest before after =>
    have hkept := Table.map_update (t := db.recoveryPaymentRequests) (k := before.id)
      (f := before.write after) RecoveryPaymentRequest.entry fun _ => rfl
    exact hkept.trans (List.append_nil _).symm
  | _ => exact (List.append_nil _).symm

end Db

/-- The entries after an attempt has got another status. -/
def AttemptEntry.conclude (attemptId : Uuid) (status : RecoveryAttemptStatus)
    (entry : AttemptEntry) : AttemptEntry :=
  if entry.attemptId = attemptId then { entry with status } else entry

namespace AttemptEntry

variable {entry : AttemptEntry} {attemptId : Uuid} {status : RecoveryAttemptStatus}

/-- The attempt that is concluded gets the status. -/
theorem conclude_eq (h : entry.attemptId = attemptId) :
    entry.conclude attemptId status = ⟨attemptId, entry.caseId, status⟩ := by
  rw [conclude, if_pos h, ← h]

/-- Any other is left. -/
theorem conclude_ne (h : entry.attemptId ≠ attemptId) :
    entry.conclude attemptId status = entry := if_neg h

end AttemptEntry

/-- What the pending update of an attempt does to the attempts. -/
theorem RecoveryAttempt.attempts_pendingUpdate (before after : RecoveryAttempt) (db : Db) :
    (Store.applyAll (before.pendingUpdate after) db).recoveryAttempts =
      Table.update db.recoveryAttempts before.id (before.write after) := by
  unfold pendingUpdate
  split
  · -- Nothing to write: every row is its own update.
    next h =>
    have hself : ∀ row : RecoveryAttempt, before.write before row = row := by simp [write]
    rw [h, Table.update]
    simp only [hself, ite_self, List.map_id']
    rfl
  · rfl

/-- A pending update inserts no attempt. -/
theorem RecoveryAttempt.attemptInsert?_pendingUpdate (before after : RecoveryAttempt) :
    (before.pendingUpdate after).findSome? Stmt.attemptInsert? = none := by
  unfold pendingUpdate
  split <;> rfl

/-- An update of the status concludes the attempt. -/
theorem entries_of_concluded {db db' : Db} {before after : RecoveryAttempt}
    (h : db'.recoveryAttempts = Table.update db.recoveryAttempts before.id (before.write after))
    (hstatus : after.status ≠ before.status) :
    db'.attemptEntries = db.attemptEntries.map (AttemptEntry.conclude before.id after.status) := by
  rw [Db.attemptEntries, h, Table.update, List.map_map, Db.attemptEntries, List.map_map]
  refine List.map_congr_left fun a _ => ?_
  rw [Function.comp_apply, Function.comp_apply]
  -- The row of the attempt gets the status; any other is left.
  by_cases hid : a.id = before.id
  · rw [if_pos (c := Keyed.key a = before.id) hid, AttemptEntry.conclude_eq (by exact hid)]
    simp [RecoveryAttempt.entry, RecoveryAttempt.write, dirty, hstatus, hid]
  · rw [if_neg (c := Keyed.key a = before.id) hid, AttemptEntry.conclude_ne (by exact hid)]

/-- An update that keeps the status is not counted. -/
theorem entries_of_noted {db db' : Db} {before after : RecoveryAttempt}
    (h : db'.recoveryAttempts = Table.update db.recoveryAttempts before.id (before.write after))
    (hstatus : after.status = before.status) : db'.attemptEntries = db.attemptEntries := by
  rw [Db.attemptEntries, h]
  refine Table.map_update _ fun a => ?_
  simp [RecoveryAttempt.entry, RecoveryAttempt.write, hstatus]

/-! ### The attempt in hand -/

/-- The case and the attempt an execution has in hand. -/
def Phase.hand? : Phase → Option (RecoveryCase × RecoveryAttempt)
  | .attempted c a => some (c, a)
  | .called c a _ _ => some (c, a)
  | .searched c a _ _ => some (c, a)
  | .reconciled c a _ _ => some (c, a)
  | _ => none

/-- An execution gets its attempt in hand by noting it, and keeps it. -/
theorem Phase.hand?_next {p : Phase} {e : Event} {c : RecoveryCase} {a : RecoveryAttempt}
    (h : (p.next e).hand? = some (c, a)) :
    p.hand? = some (c, a) ∨ ∃ sts, e = .committed sts ∧ p = .claimed c ∧
      sts.findSome? Stmt.attemptInsert? = some a := by
  rcases of_next hand? rfl h with h | ⟨sts, rfl⟩ |
    ⟨_, _, _, _, _, _, rfl, -, h⟩ | ⟨_, _, _, _, _, _, rfl, -, h⟩
  · exact .inl h
  · cases p with
    -- A claim takes a case in hand, and no attempt yet.
    | idle =>
      simp only [next] at h
      split at h <;> cases h
    -- The attempt comes in hand with the transaction that inserts it.
    | claimed c' =>
      simp only [next] at h
      split at h
      · next a' ha =>
        cases h
        exact .inr ⟨sts, rfl, rfl, ha⟩
      · cases h
    -- The note of the search keeps it.
    | searched c' a' made found => exact .inl h
    | _ => cases h
  · exact .inl h
  · exact .inl h

/-- The transaction that records a link puts the attempt down. -/
theorem Phase.hand?_of_inHand {p : Phase} {c : RecoveryCase} {a : RecoveryAttempt}
    {made : Option PaymentLinkSnapshot} {link : PaymentLinkSnapshot}
    (h : p = .called c a made (.ok link) ∨ p = .reconciled c a made (.ok (some link)))
    (sts : List Stmt) : p.hand? = some (c, a) ∧ (p.next (.committed sts)).hand? = none := by
  rcases h with rfl | rfl <;> exact ⟨rfl, rfl⟩

/-- So does the one that gives it up. -/
theorem Phase.hand?_of_gaveUp {p : Phase} {c : RecoveryCase} {a : RecoveryAttempt}
    {made : Option PaymentLinkSnapshot}
    (h : (∃ e, p = .called c a made (.error (.paymentProvider e)) ∧ e.kind ≠ .ambiguous) ∨
      (∃ found, p = .reconciled c a made found ∧ ∀ link, found ≠ .ok (some link)))
    (sts : List Stmt) : p.hand? = some (c, a) ∧ (p.next (.committed sts)).hand? = none := by
  rcases h with ⟨e, rfl, -⟩ | ⟨found, rfl, -⟩ <;> exact ⟨rfl, rfl⟩

/-- With its attempt, an execution has its case in hand. -/
theorem Phase.case?_of_hand? {p : Phase} {c : RecoveryCase} {a : RecoveryAttempt}
    (h : p.hand? = some (c, a)) : p.case? = some c := by
  cases p <;> cases h <;> rfl

/-! ### What a transaction does -/

/-- What a transaction does to the attempts, and which links it inserts. -/
inductive AttemptEffect (h : List Event) (db : Db) (sts : List Stmt) : Prop where
  | kept (insert : sts.findSome? Stmt.attemptInsert? = none)
      (links : sts.filterMap Stmt.linkInsert? = [])
      (entries : (Store.applyAll sts db).attemptEntries = db.attemptEntries)
  | started (c : RecoveryCase) (a : RecoveryAttempt) (claimed : phase h = .claimed c)
      (insert : sts.findSome? Stmt.attemptInsert? = some a) (caseId : a.recoveryCaseId = c.id)
      (status : a.status = .inProgress) (links : sts.filterMap Stmt.linkInsert? = [])
      (entries : (Store.applyAll sts db).attemptEntries = db.attemptEntries ++ [a.entry])
  | concluded (c : RecoveryCase) (a : RecoveryAttempt) (status : RecoveryAttemptStatus)
      (hand : (phase h).hand? = some (c, a))
      (left : ((phase h).next (.committed sts)).hand? = none)
      (links : status = .failed ∧ sts.filterMap Stmt.linkInsert? = [] ∨
        status = .succeeded ∧ ∃ link id completedAt correlationId now,
          sts = recordStmts c a link id completedAt correlationId now)
      (entries : (Store.applyAll sts db).attemptEntries =
        db.attemptEntries.map (.conclude a.id status))

namespace AttemptEffect

variable {h : List Event} {db : Db}

/-- A statement on another table inserts no attempt. -/
theorem attemptInsert?_of_table {st : Stmt} (ht : st.table ≠ .recoveryAttempts) :
    st.attemptInsert? = none := by
  -- The only insert of an attempt is one into its table.
  cases st with
  | insertAttempt a => exact absurd rfl ht
  | _ => rfl

/-- A transaction that leaves the attempts alone, and inserts no link. -/
theorem of_table (ht : ∀ st ∈ sts, st.table ≠ .recoveryAttempts)
    (hl : sts.filterMap Stmt.linkInsert? = []) : AttemptEffect h db sts := by
  refine .kept (List.findSome?_eq_none_iff.mpr fun st hst => attemptInsert?_of_table (ht st hst)) hl ?_
  rw [Db.attemptEntries, Stmt.frame_recoveryAttempts ht, Db.attemptEntries]

/-- One that concludes an attempt. -/
theorem of_update {c : RecoveryCase} {before after : RecoveryAttempt}
    (hand : (phase h).hand? = some (c, before) ∧
      ((phase h).next (.committed sts)).hand? = none)
    (hstatus : after.status ≠ before.status)
    (hlinks : after.status = .failed ∧ sts.filterMap Stmt.linkInsert? = [] ∨
      after.status = .succeeded ∧ ∃ link id completedAt correlationId now,
        sts = recordStmts c before link id completedAt correlationId now)
    (hattempts : (Store.applyAll sts db).recoveryAttempts =
      Table.update db.recoveryAttempts before.id (before.write after)) : AttemptEffect h db sts :=
  .concluded c before after.status hand.1 hand.2 hlinks (entries_of_concluded hattempts hstatus)

/-- A transaction on cases alone. -/
theorem of_onCases (hs : OnCases sts) : AttemptEffect h db sts :=
  of_table (hs.table_ne (by simp) (by simp)) hs.internal.filterMap_linkInsert?

end AttemptEffect

/-- What the record of a link does to the attempts. -/
theorem attempts_recordStmts (c : RecoveryCase) (attempt : RecoveryAttempt)
    (link : PaymentLinkSnapshot) (id : Uuid) (completedAt : Time) (correlationId : String)
    (now : Time) (db : Db) :
    (Store.applyAll (recordStmts c attempt link id completedAt correlationId now)
      db).recoveryAttempts =
      Table.update db.recoveryAttempts attempt.id
        (attempt.write (attempt.succeed link completedAt)) := by
  rw [recordStmts, recordFlush, Store.applyAll_append, Store.applyAll_append, Store.applyAll_cons]
  exact RecoveryAttempt.attempts_pendingUpdate _ _ _

/-- What giving up does to the attempts. -/
theorem attempts_giveUpStmts (c : RecoveryCase) (attempt : RecoveryAttempt)
    (category : ProviderFailureCategory) (message reason correlationId : String)
    (completedAt now : Time) (db : Db) :
    (Store.applyAll (giveUpStmts c attempt category message reason correlationId completedAt now)
      db).recoveryAttempts =
      Table.update db.recoveryAttempts attempt.id
        (attempt.write (attempt.fail category message completedAt)) := by
  rw [giveUpStmts, Store.applyAll_append, Stmt.frame_recoveryAttempts
    (OnCases.transition.table_ne (by simp) (by simp))]
  exact RecoveryAttempt.attempts_pendingUpdate _ _ _

/-- A delivery about a link inserts neither an attempt nor a link. -/
theorem Delivery.filterMap_linkInsert?_observeStmts (d : Delivery) (now : Time) :
    (d.observeStmts now).filterMap Stmt.linkInsert? = [] := by
  refine List.filterMap_eq_nil_iff.mpr fun st hst => ?_
  rw [observeStmts, List.mem_cons, List.mem_append, List.mem_singleton] at hst
  rcases hst with rfl | hst | rfl
  · rfl
  · unfold RecoveryPaymentRequest.pendingUpdate at hst
    split at hst
    · cases hst
    · rw [List.mem_singleton.mp hst]
      rfl
  · rfl

/-- A delivery that fails its case leaves the attempt as it was counted. -/
theorem Delivery.entries_failStmts (d : Delivery) (attempt : Option RecoveryAttempt)
    (now now' : Time) (db : Db) :
    (Store.applyAll (d.failStmts attempt now now') db).attemptEntries = db.attemptEntries := by
  have hobserve : (Store.applyAll (d.observeStmts now) db).recoveryAttempts =
      db.recoveryAttempts := Stmt.frame_recoveryAttempts fun st hst => by
    rcases d.table_observeStmts hst with h | h | h <;> rw [h] <;> simp
  -- The failure is noted on the attempt, and its status is left.
  have hfailure : ∀ db : Db,
      (Store.applyAll (d.failureStmts attempt) db).attemptEntries = db.attemptEntries := by
    intro db
    cases attempt with
    | none => rfl
    | some attempt => exact entries_of_noted (RecoveryAttempt.attempts_pendingUpdate _ _ _) rfl
  rw [failStmts, transitionStmts, Store.applyAll_append, Store.applyAll_append,
    Store.applyAll_cons]
  exact (hfailure _).trans (congrArg (List.map RecoveryAttempt.entry) hobserve)

/-- It inserts neither an attempt nor a link. -/
theorem Delivery.insert_failStmts (d : Delivery) (attempt : Option RecoveryAttempt)
    (now now' : Time) : (d.failStmts attempt now now').findSome? Stmt.attemptInsert? = none ∧
      (d.failStmts attempt now now').filterMap Stmt.linkInsert? = [] := by
  have hfailure : (d.failureStmts attempt).findSome? Stmt.attemptInsert? = none := by
    cases attempt with
    | none => rfl
    | some attempt => exact attempt.attemptInsert?_pendingUpdate _
  have hinternal : Internal (d.failureStmts attempt) :=
    fun st hst => .inr (.inl (d.table_failureStmts hst))
  refine ⟨List.findSome?_eq_none_iff.mpr fun st hst => ?_, ?_⟩
  · rw [failStmts, List.mem_append, transitionStmts, List.cons_append, List.mem_cons,
      List.mem_append, List.mem_singleton] at hst
    -- Of the link, of the case, of the attempt, and of the audit event.
    rcases hst with hst | rfl | hst | rfl
    · refine AttemptEffect.attemptInsert?_of_table ?_
      rcases d.table_observeStmts hst with h | h | h <;> rw [h] <;> simp
    · rfl
    · exact List.findSome?_eq_none_iff.mp hfailure st hst
    · rfl
  · rw [failStmts, List.filterMap_append, d.filterMap_linkInsert?_observeStmts,
      (Internal.transition hinternal).filterMap_linkInsert?]
    rfl

/-- **What any transaction does to the attempts.** -/
theorem Txn.attemptEffect {h : List Event} {db : Db} (htxn : Txn h db sts)
    (hstatus : ∀ c a, (phase h).hand? = some (c, a) → a.status = .inProgress) :
    AttemptEffect h db sts := by
  cases htxn with
  | ingested i =>
    -- Payments, customers and their events.
    refine .of_table (fun st hst => ?_) (filterMap_linkInsert?_of_table fun st hst => ?_) <;>
      rcases table_paymentStmts hst with h | h | h <;> rw [h] <;> simp
  | ingestedWithCase i id createdAt t' =>
    have hopening : OnCases (openingStmts id i.payment createdAt i.correlationId t') :=
      forall_mem_openingStmts (fun _ => .inl rfl) (fun _ _ _ _ => .inr rfl) _ _ _ _
    refine .of_table (fun st hst => ?_) (filterMap_linkInsert?_of_table fun st hst => ?_) <;>
      rcases List.mem_append.mp hst with hst | hst
    · rcases table_paymentStmts hst with h | h | h <;> rw [h] <;> simp
    · exact hopening.table_ne (by simp) (by simp) st hst
    · rcases table_paymentStmts hst with h | h | h <;> rw [h] <;> simp
    · exact hopening.table_ne (by simp) (by simp) st hst
  | deduplicated => exact .of_onCases .audit
  | opened openings correlationId => exact .of_onCases (.openings openings correlationId)
  | turnedAway d => exact .of_onCases d.onCases_turnAwayStmts
  | diagnosed d => exact .of_onCases d.onCases_stmts
  | claimed x => exact .of_onCases (.claim x)
  | withheld x reason t => exact .of_onCases (.withhold x reason t)
  -- The execution notes its attempt, and has it in hand from here on.
  | attempted c payment correlationId reference id startedAt createdAt t op claimed =>
    refine .started c _ claimed rfl rfl rfl rfl ?_
    exact List.map_append
  -- It succeeds, with the link in the same transaction.
  | recorded c attempt made link id completedAt correlationId t op inHand =>
    have hhand := Phase.hand?_of_inHand inHand
    refine .of_update (hhand _) ?_ (.inr ⟨rfl, link, id, completedAt, correlationId, t, rfl⟩)
      (attempts_recordStmts c attempt link id completedAt correlationId t db)
    rw [hstatus c attempt (hhand []).1]
    simp [RecoveryAttempt.succeed]
  | reconciled => exact .of_onCases (.append .audit .audit)
  -- It fails, without a link.
  | gaveUp c attempt made category message reason correlationId completedAt t op inHand =>
    have hhand := Phase.hand?_of_gaveUp inHand
    have hlinks := (Internal.giveUp c attempt category message reason correlationId completedAt
      t).filterMap_linkInsert?
    refine .of_update (hhand _) ?_ (.inl ⟨rfl, hlinks⟩)
      (attempts_giveUpStmts c attempt category message reason correlationId completedAt t db)
    rw [hstatus c attempt (hhand []).1]
    simp [RecoveryAttempt.fail]
  | ignored => exact .of_table (by simp [Delivery.claimStmt, Stmt.table]) rfl
  | unmatched => exact .of_table (by simp [Delivery.claimStmt, auditStmt, Stmt.table]) rfl
  | detached => exact .of_table (by simp [Delivery.claimStmt, Stmt.table]) rfl
  | observed d t =>
    refine .of_table (fun st hst => ?_) (d.filterMap_linkInsert?_observeStmts t)
    rcases d.table_observeStmts hst with h | h | h <;> rw [h] <;> simp
  | recovered d t t' =>
    refine .of_table (fun st hst => ?_) ?_
    · rcases List.mem_append.mp hst with hst | hst
      · rcases d.table_observeStmts hst with h | h | h <;> rw [h] <;> simp
      · exact OnCases.transition.table_ne (by simp) (by simp) st hst
    · rw [Delivery.recoverStmts, List.filterMap_append, d.filterMap_linkInsert?_observeStmts,
        (OnCases.transition.internal).filterMap_linkInsert?]
      rfl
  -- A delivery writes the failure onto the attempt, which was concluded before.
  | failed d attempt t t' =>
    obtain ⟨hinsert, hlinks⟩ := d.insert_failStmts attempt t t'
    exact .kept hinsert hlinks (d.entries_failStmts attempt t t' db)
  | cycled => exact .of_onCases .audit

/-! ### In step -/

/-- The links are those of the attempts that succeeded. -/
structure Aligned (attempts : List AttemptEntry) (links : List LinkEntry) : Prop where
  linked : ∀ l ∈ links, ⟨l.attemptId, l.caseId, .succeeded⟩ ∈ attempts
  succeeded : ∀ a ∈ attempts, a.status = .succeeded → ⟨a.caseId, a.attemptId⟩ ∈ links

namespace Aligned

variable {attempts : List AttemptEntry} {links : List LinkEntry} {attemptId caseId : Uuid}

/-- A new attempt needs no link. -/
theorem started {a : AttemptEntry} (h : Aligned attempts links) (ha : a.status = .inProgress) :
    Aligned (attempts ++ [a]) links where
  -- A new attempt has not succeeded.
  linked := fun l hl => List.mem_append_left _ (h.linked l hl)
  succeeded := by
    intro a' ha' hs
    rcases List.mem_append.mp ha' with ha' | ha'
    · exact h.succeeded a' ha' hs
    · rw [List.mem_singleton.mp ha', ha] at hs
      cases hs

section Concluded

variable (h : Aligned attempts links)
  (hunique : ∀ a ∈ attempts, ∀ a' ∈ attempts, a.attemptId = a'.attemptId → a = a')
  (hmem : ⟨attemptId, caseId, .inProgress⟩ ∈ attempts)
include h hunique hmem

/-- The attempt has no link yet. -/
theorem ne_of_mem {l : LinkEntry} (hl : l ∈ links) : l.attemptId ≠ attemptId := by
  intro hid
  -- The entry of its link would say that it had succeeded.
  have heq := hunique _ (h.linked l hl) _ hmem hid
  rw [AttemptEntry.mk.injEq] at heq
  cases heq.2.2

/-- A link stays that of its attempt. -/
theorem linked_conclude (status : RecoveryAttemptStatus) {l : LinkEntry} (hl : l ∈ links) :
    ⟨l.attemptId, l.caseId, .succeeded⟩ ∈
      attempts.map (AttemptEntry.conclude attemptId status) := by
  refine List.mem_map.mpr ⟨_, h.linked l hl, ?_⟩
  exact AttemptEntry.conclude_ne (ne_of_mem h hunique hmem hl)

/-- An attempt that had succeeded, or the one that is concluded. -/
theorem of_mem_conclude {status : RecoveryAttemptStatus} {a : AttemptEntry}
    (ha : a ∈ attempts.map (.conclude attemptId status)) (hs : a.status = .succeeded) :
    ⟨a.caseId, a.attemptId⟩ ∈ links ∨ a = ⟨attemptId, caseId, status⟩ := by
  obtain ⟨a₀, ha₀, rfl⟩ := List.mem_map.mp ha
  -- It is the one that is concluded, or it is left as it was.
  by_cases hid : a₀.attemptId = attemptId
  · rw [AttemptEntry.conclude_eq hid, hunique _ ha₀ _ hmem hid]
    exact .inr rfl
  · rw [AttemptEntry.conclude_ne hid] at hs ⊢
    exact .inl (h.succeeded a₀ ha₀ hs)

/-- An attempt that fails needs none. -/
theorem failed : Aligned (attempts.map (.conclude attemptId .failed)) links where
  linked := fun _ hl => linked_conclude h hunique hmem .failed hl
  succeeded := by
    intro a ha hs
    rcases of_mem_conclude h hunique hmem ha hs with hl | rfl
    · exact hl
    · cases hs

/-- An attempt that succeeds has the link that is recorded with it. -/
theorem recorded :
    Aligned (attempts.map (.conclude attemptId .succeeded)) (links ++ [⟨caseId, attemptId⟩]) where
  linked := by
    intro l hl
    rcases List.mem_append.mp hl with hl | hl
    · -- A link from before, or the new one.
      exact linked_conclude h hunique hmem .succeeded hl
    · rw [List.mem_singleton.mp hl]
      exact List.mem_map.mpr ⟨_, hmem, AttemptEntry.conclude_eq rfl⟩
  succeeded := by
    intro a ha hs
    rcases of_mem_conclude h hunique hmem ha hs with hl | rfl
    · exact List.mem_append_left _ hl
    · exact List.mem_append_right _ List.mem_cons_self

end Concluded

end Aligned

/-- The attempts in hand are under way, each in one hand. -/
structure Handed (H : History) : Prop where
  inProgress : ∀ u c a, (phase (H.own u)).hand? = some (c, a) →
    a.status = .inProgress ∧ ⟨a.id, c.id, .inProgress⟩ ∈ H.replay.attemptEntries
  apart : ∀ u u' c c' a a', (phase (H.own u)).hand? = some (c, a) →
    (phase (H.own u')).hand? = some (c', a') → a.id = a'.id → u = u'

/-- What is in hand was in hand, or has just been noted. -/
theorem hand?_cons {c : RecoveryCase} {a : RecoveryAttempt}
    (hc : (phase (History.own ((t, e) :: H) u)).hand? = some (c, a)) :
    (phase (History.own H u)).hand? = some (c, a) ∨
      u = t ∧ phase (History.own H t) = .claimed c ∧
        ∃ sts, e = .committed sts ∧ sts.findSome? Stmt.attemptInsert? = some a := by
  -- The event is of another operation, or of this one.
  by_cases hu : u = t
  case neg =>
    rw [History.own_cons_ne hu] at hc
    exact .inl hc
  subst hu
  rw [History.own_cons_self, phase_cons] at hc
  rcases Phase.hand?_next hc with hc | ⟨sts, rfl, hclaimed, hinsert⟩
  · exact .inl hc
  · exact .inr ⟨rfl, hclaimed, sts, rfl, hinsert⟩

/-- What does not commit leaves the attempts in hand. -/
theorem Handed.of_same (hh : Handed H) (hreplay : History.replay ((t, e) :: H) = H.replay)
    (he : ∀ sts, e ≠ .committed sts) : Handed ((t, e) :: H) where
  inProgress := by
    intro u c a hc
    -- An attempt comes in hand by a commit only.
    rcases hand?_cons hc with hc | ⟨-, -, sts, rfl, -⟩
    · rw [hreplay]
      exact hh.inProgress u c a hc
    · exact absurd rfl (he sts)
  apart := by
    intro u u' c c' a a' hc hc' hid
    rcases hand?_cons hc with hc | ⟨-, -, sts, rfl, -⟩
    · rcases hand?_cons hc' with hc' | ⟨-, -, sts, rfl, -⟩
      · exact hh.apart u u' c c' a a' hc hc' hid
      · exact absurd rfl (he sts)
    · exact absurd rfl (he sts)

/-- No two attempts have one id. -/
theorem Lawful.unique_entries (h : Lawful H) :
    ∀ a ∈ H.replay.attemptEntries, ∀ a' ∈ H.replay.attemptEntries, a.attemptId = a'.attemptId →
      a = a' := by
  intro a ha a' ha' hid
  obtain ⟨r, hr, rfl⟩ := List.mem_map.mp ha
  obtain ⟨r', hr', rfl⟩ := List.mem_map.mp ha'
  rw [h.distinct.attemptId.eq_of_mem hr hr' hid]

/-- The id of an attempt that was just noted is new. -/
theorem Lawful.ne_of_started {a : RecoveryAttempt} (h : Lawful ((t, .committed sts) :: H))
    (hentries : (Store.applyAll sts H.replay).attemptEntries = H.replay.attemptEntries ++ [a.entry])
    {entry : AttemptEntry} (hentry : entry ∈ H.replay.attemptEntries) : entry.attemptId ≠ a.id := by
  have hnodup : ((Store.applyAll sts H.replay).attemptEntries.map
      AttemptEntry.attemptId).Nodup := by
    rw [Db.attemptEntries, List.map_map]
    -- The ids of the table after the transaction are distinct.
    exact h.distinct.attemptId
  rw [hentries, List.map_append, List.nodup_append] at hnodup
  exact hnodup.2.2 _ (List.mem_map_of_mem hentry) _ List.mem_cons_self

/-- **A transaction keeps each attempt in one hand.** -/
theorem Handed.of_commit (hh : Handed H) (h : Lawful ((t, .committed sts) :: H))
    (he : AttemptEffect (H.own t) H.replay sts) : Handed ((t, .committed sts) :: H) := by
  have hreplay : (History.replay ((t, .committed sts) :: H)) = Store.applyAll sts H.replay := by
    rw [History.replay_cons, Event.applyTo_committed]
  cases he with
  | kept insert links entries =>
    -- No attempt comes in hand.
    have hold : ∀ {u c a}, (phase (History.own ((t, .committed sts) :: H) u)).hand? = some (c, a) →
        (phase (H.own u)).hand? = some (c, a) := by
      intro u c a hc
      rcases hand?_cons hc with hc | ⟨-, -, sts', heq, hinsert⟩
      · exact hc
      · cases heq
        rw [insert] at hinsert
        cases hinsert
    refine ⟨fun u c a hc => ?_, fun u u' c c' a a' hc hc' hid => ?_⟩
    · rw [hreplay, entries]
      exact hh.inProgress u c a (hold hc)
    · exact hh.apart u u' c c' a a' (hold hc) (hold hc') hid
  | started c₀ a₀ claimed insert caseId status links entries =>
    -- in hand is what was, or the new attempt
    have hnew : ∀ {u c a}, (phase (History.own ((t, .committed sts) :: H) u)).hand? = some (c, a) →
        (phase (H.own u)).hand? = some (c, a) ∨ u = t ∧ c = c₀ ∧ a = a₀ := by
      intro u c a hc
      rcases hand?_cons hc with hc | ⟨rfl, hclaimed, sts', heq, hinsert⟩
      · exact .inl hc
      · cases heq
        rw [insert, Option.some.injEq] at hinsert
        rw [claimed, Phase.claimed.injEq] at hclaimed
        exact .inr ⟨rfl, hclaimed.symm, hinsert.symm⟩
    -- The new id is the id of no attempt in hand.
    have hne : ∀ {u c a}, (phase (H.own u)).hand? = some (c, a) → a.id ≠ a₀.id := fun hc =>
      h.ne_of_started entries (hh.inProgress _ _ _ hc).2
    refine ⟨fun u c a hc => ?_, fun u u' c c' a a' hc hc' hid => ?_⟩
    · rw [hreplay, entries]
      rcases hnew hc with hc | ⟨rfl, rfl, rfl⟩
      · exact (hh.inProgress u c a hc).imp_right (List.mem_append_left _)
      · refine ⟨status, List.mem_append_right _ ?_⟩
        rw [List.mem_singleton, RecoveryAttempt.entry, caseId, status]
    · -- Both were in hand, one of them was, or both are the new one.
      rcases hnew hc with hold | ⟨hu, -, rfl⟩ <;> rcases hnew hc' with hold' | ⟨hu', -, rfl⟩
      · exact hh.apart u u' c c' a a' hold hold' hid
      · exact absurd hid (hne hold)
      · exact absurd hid.symm (hne hold')
      · exact hu.trans hu'.symm
  | concluded c₀ a₀ status hand left links entries =>
    -- nothing is left in the hand of `t`
    have hold : ∀ {u c a}, (phase (History.own ((t, .committed sts) :: H) u)).hand? = some (c, a) →
        u ≠ t ∧ (phase (H.own u)).hand? = some (c, a) := by
      intro u c a hc
      have hu : u ≠ t := by
        rintro rfl
        rw [History.own_cons_self, phase_cons, left] at hc
        cases hc
      rw [History.own_cons_ne hu] at hc
      exact ⟨hu, hc⟩
    refine ⟨fun u c a hc => ?_, fun u u' c c' a a' hc hc' hid => ?_⟩
    · obtain ⟨hu, hc⟩ := hold hc
      obtain ⟨hstatus, hmem⟩ := hh.inProgress u c a hc
      rw [hreplay, entries]
      -- What is concluded is in the hand of `t`, so the others keep theirs.
      refine ⟨hstatus, List.mem_map.mpr ⟨_, hmem, AttemptEntry.conclude_ne fun hid => ?_⟩⟩
      exact hu (hh.apart u t c c₀ a a₀ hc hand hid)
    · exact hh.apart u u' c c' a a' (hold hc).2 (hold hc').2 hid

/-- The counter of a case and its links. -/
structure Counted (db : Db) : Prop where
  counted : ∀ id c, db.recoveryCases.get? id = some c →
    c.currentAttemptNumber = (db.linkEntries.countP fun l => l.caseId = id : ℕ)
  cased : ∀ l ∈ db.linkEntries, (db.recoveryCases.get? l.caseId).isSome

/-- Whatever moves a case and inserts no link leaves the counter. -/
theorem CaseStep.counter {h : List Event} {db : Db} {c c' : RecoveryCase}
    (hs : CaseStep h db sts c c') (hlinks : sts.filterMap Stmt.linkInsert? = []) :
    c'.currentAttemptNumber = c.currentAttemptNumber := by
  cases hs with
  | diagnosed d => exact d.after_currentAttemptNumber
  | recorded c attempt made link id completedAt correlationId now =>
    rw [filterMap_linkInsert?_recordStmts] at hlinks
    cases hlinks
  | _ => rfl

/-- **A transaction that inserts no link keeps the counters.** -/
theorem Counted.of_caseEffect {h : List Event} {db : Db} (hcounted : Counted db)
    (he : CaseEffect h db sts) (hev : db.Evolves (Store.applyAll sts db))
    (hlinks : sts.filterMap Stmt.linkInsert? = []) : Counted (Store.applyAll sts db) := by
  have hentries : (Store.applyAll sts db).linkEntries = db.linkEntries := by
    rw [Db.linkEntries_applyAll, hlinks, List.map_nil, List.append_nil]
  refine ⟨fun id c hc => ?_, fun l hl => ?_⟩
  · rw [hentries]
    cases he with
    | same quiet cases =>
      rw [cases] at hc
      exact hcounted.counted id c hc
    -- A new case has no link: every link has a case that was there before.
    | opened rows quiet cases fresh =>
      rw [cases, Table.get?_append] at hc
      cases hold : db.recoveryCases.get? id with
      | some c₀ =>
        rw [hold, Option.some_or, Option.some.injEq] at hc
        rw [← hc]
        exact hcounted.counted id c₀ hold
      | none =>
        rw [hold, Option.none_or] at hc
        obtain ⟨payment, id', createdAt, rfl, -⟩ := fresh c (Table.mem_of_get? hc)
        have hzero : (db.linkEntries.countP fun l => l.caseId = id) = 0 := by
          refine List.countP_eq_zero.mpr fun l hl heq => ?_
          have hsome := hcounted.cased l hl
          rw [of_decide_eq_true heq, hold] at hsome
          cases hsome
        rw [hzero]
        rfl
    | moved c₁ c₂ step row cases =>
      rw [cases] at hc
      split at hc
      · -- The case that was moved keeps its counter, and so do the others.
        next hid =>
        rw [← Option.some.inj hc, step.counter hlinks, ← hid]
        exact hcounted.counted _ _ row
      · exact hcounted.counted id c hc
  · rw [hentries] at hl
    obtain ⟨c, hc⟩ := Option.isSome_iff_exists.mp (hcounted.cased l hl)
    -- No case is deleted.
    obtain ⟨c', hc', -⟩ := hev.recoveryCase _ _ hc
    exact Option.isSome_iff_exists.mpr ⟨c', hc'⟩

/-- **The record of a link counts it.** -/
theorem Counted.of_recordStmts {db : Db} (hcounted : Counted db) (c : RecoveryCase)
    (attempt : RecoveryAttempt) (link : PaymentLinkSnapshot) (id : Uuid) (completedAt : Time)
    (correlationId : String) (now : Time) (hrow : db.recoveryCases.get? c.id = some c) :
    Counted (Store.applyAll (recordStmts c attempt link id completedAt correlationId now) db) := by
  have hturns := turns_recordStmts c attempt link id completedAt correlationId now db hrow
  have hentries : (Store.applyAll (recordStmts c attempt link id completedAt correlationId now)
      db).linkEntries = db.linkEntries ++ [⟨c.id, attempt.id⟩] := by
    rw [Db.linkEntries_applyAll, filterMap_linkInsert?_recordStmts]
    rfl
  refine ⟨fun id' c' hc' => ?_, fun l hl => ?_⟩
  · rw [hturns] at hc'
    rw [hentries, List.countP_append]
    split at hc'
    · -- The case of the link counts it.
      next hid =>
      subst hid
      rw [← Option.some.inj hc']
      have hbefore := hcounted.counted _ _ hrow
      simp only [RecoveryCase.recorded, RecoveryCase.counted, List.countP_singleton, decide_true,
        if_true]
      omega
    · -- Any other case counts as before.
      next hid =>
      rw [hcounted.counted id' c' hc', List.countP_singleton, if_neg (by simpa using hid)]
      rfl
  · rw [hturns]
    split
    · rfl
    · next hid =>
      rw [hentries] at hl
      rcases List.mem_append.mp hl with hl | hl
      · -- A link from before has its case; the new one has the case that counts it.
        exact hcounted.cased l hl
      · rw [List.mem_singleton.mp hl] at hid
        exact absurd rfl hid

/-- Attempts, links and counters in step. -/
structure InStep (H : History) : Prop where
  handed : Handed H
  aligned : Aligned H.replay.attemptEntries H.replay.linkEntries
  counted : Counted H.replay

/-- A transaction keeps attempts, links and counters in step. -/
theorem InStep.of_commit (hi : InStep H) (h : Lawful ((t, .committed sts) :: H)) :
    InStep ((t, .committed sts) :: H) := by
  have heffect := Txn.attemptEffect h.cons_inv.2.1 fun c a hc => (hi.handed.inProgress t c a hc).1
  have hunique := h.cons_inv.1.unique_entries
  have hevolves : H.replay.Evolves (Store.applyAll sts H.replay) := h.evolves_cons
  have hcounted := fun hlinks => hi.counted.of_caseEffect h.caseEffect hevolves hlinks
  have hlinkEntries := Db.linkEntries_applyAll sts H.replay
  refine ⟨hi.handed.of_commit h heffect, ?_, ?_⟩ <;> rw [History.replay_cons, Event.applyTo_committed]
  · -- The attempts and the links.
    cases heffect with
    | kept insert links entries =>
      rw [links, List.map_nil, List.append_nil] at hlinkEntries
      rw [entries, hlinkEntries]
      exact hi.aligned
    | started c a claimed insert caseId status links entries =>
      rw [links, List.map_nil, List.append_nil] at hlinkEntries
      rw [entries, hlinkEntries]
      exact hi.aligned.started status
    | concluded c a status hand left links entries =>
      have hmem := (hi.handed.inProgress t c a hand).2
      rcases links with ⟨rfl, links⟩ | ⟨rfl, link, id, completedAt, correlationId, now, rfl⟩
      · rw [links, List.map_nil, List.append_nil] at hlinkEntries
        rw [entries, hlinkEntries]
        exact hi.aligned.failed hunique hmem
      · rw [filterMap_linkInsert?_recordStmts] at hlinkEntries
        rw [entries, hlinkEntries]
        exact hi.aligned.recorded hunique hmem
  · -- The counters: a transaction without a link keeps them, and the one with a link counts it.
    cases heffect with
    | kept insert links => exact hcounted links
    | started c a claimed insert caseId status links => exact hcounted links
    | concluded c a status hand left links =>
      rcases links with ⟨-, links⟩ | ⟨-, link, id, completedAt, correlationId, now, rfl⟩
      · exact hcounted links
      · -- The case in hand is the committed row, or the update would not have been matched.
        have hseen : H.replay.CaseSeen c :=
          h.cons_inv.1.caseSeen_of_inHand (Phase.case?_of_hand? hand)
        have hnil : ∀ st ∈ ([] : List Stmt), st.table ≠ .recoveryCases := by simp
        exact hi.counted.of_recordStmts c a link id completedAt correlationId now
          (hseen.of_checkAll hnil (h.cons_inv.2.2 _ rfl))

/-- **Attempts, links and counters stay in step.** -/
theorem Lawful.inStep (h : Lawful H) : InStep H := by
  induction h using Lawful.induction with
  | refl =>
    exact ⟨⟨fun _ _ _ hc => (by cases hc), fun _ _ _ _ _ _ hc => (by cases hc)⟩,
      ⟨fun _ hl => absurd hl List.not_mem_nil, fun _ ha => absurd ha List.not_mem_nil⟩,
      ⟨fun _ _ hc => (by cases hc), fun _ hl => absurd hl List.not_mem_nil⟩⟩
  -- By induction on the record: only commits matter.
  | @cons H t e before hlawful ih =>
    cases e with
    | committed sts => exact ih.of_commit hlawful
    | _ => exact ⟨ih.handed.of_same rfl nofun, ih.aligned, ih.counted⟩

/-! ### One case -/

/-- The links of a case. -/
def Db.linksOf (db : Db) (caseId : Uuid) : List RecoveryPaymentRequest :=
  db.recoveryPaymentRequests.filter fun l => l.recoveryCaseId = caseId

/-- The attempts of a case that succeeded. -/
def Db.succeededOf (db : Db) (caseId : Uuid) : List RecoveryAttempt :=
  db.recoveryAttempts.filter fun a => a.recoveryCaseId = caseId ∧ a.status = .succeeded

/-- The counter of the case, its links and its attempts that succeeded agree. -/
structure RecoveryCase.Agrees (c : RecoveryCase) (db : Db) : Prop where
  links : c.currentAttemptNumber = (db.linksOf c.id).length
  attempts : c.currentAttemptNumber = (db.succeededOf c.id).length
  /-- Each link has its attempt, and each attempt its link. -/
  attemptOf : ∀ l ∈ db.linksOf c.id, ∃! a, a ∈ db.succeededOf c.id ∧ l.recoveryAttemptId = a.id
  linkOf : ∀ a ∈ db.succeededOf c.id, ∃! l, l ∈ db.linksOf c.id ∧ l.recoveryAttemptId = a.id
  /-- And of no other case. -/
  sameCase : ∀ l ∈ db.recoveryPaymentRequests, ∀ a ∈ db.recoveryAttempts,
    l.recoveryAttemptId = a.id → (l ∈ db.linksOf c.id ↔ a ∈ db.succeededOf c.id)

namespace Db

variable {db : Db} {caseId : Uuid}

/-- Membership. -/
theorem mem_linksOf {l : RecoveryPaymentRequest} :
    l ∈ db.linksOf caseId ↔ l ∈ db.recoveryPaymentRequests ∧ l.recoveryCaseId = caseId := by
  simp [linksOf]

/-- Membership. -/
theorem mem_succeededOf {a : RecoveryAttempt} : a ∈ db.succeededOf caseId ↔
    a ∈ db.recoveryAttempts ∧ a.recoveryCaseId = caseId ∧ a.status = .succeeded := by
  simp [succeededOf]

/-- The links of a case are as many as their entries. -/
theorem length_linksOf : (db.linksOf caseId).length =
    db.linkEntries.countP fun l => l.caseId = caseId := by
  rw [linksOf, ← List.countP_eq_length_filter, linkEntries, List.countP_map]
  rfl

section Aligned

variable (h : Aligned db.attemptEntries db.linkEntries)
include h

/-- A link has its attempt, -/
theorem exists_attempt {l : RecoveryPaymentRequest} (hl : l ∈ db.linksOf caseId) :
    ∃ a ∈ db.succeededOf caseId, a.id = l.recoveryAttemptId := by
  obtain ⟨hl, hcase⟩ := mem_linksOf.mp hl
  obtain ⟨a, ha, he⟩ := List.mem_map.mp (h.linked _ (List.mem_map_of_mem hl))
  rw [RecoveryAttempt.entry, AttemptEntry.mk.injEq] at he
  exact ⟨a, mem_succeededOf.mpr ⟨ha, he.2.1.trans hcase, he.2.2⟩, he.1⟩

/-- and an attempt that succeeded its link. -/
theorem exists_link {a : RecoveryAttempt} (ha : a ∈ db.succeededOf caseId) :
    ∃ l ∈ db.linksOf caseId, l.recoveryAttemptId = a.id := by
  obtain ⟨ha, hcase, hstatus⟩ := mem_succeededOf.mp ha
  obtain ⟨l, hl, he⟩ := List.mem_map.mp (h.succeeded _ (List.mem_map_of_mem ha) hstatus)
  rw [RecoveryPaymentRequest.entry, LinkEntry.mk.injEq] at he
  exact ⟨l, mem_linksOf.mpr ⟨hl, he.1.trans hcase⟩, he.2⟩

/-- As many links as attempts: their ids are the same. -/
theorem length_eq (hd : db.Distinct) :
    (db.linksOf caseId).length = (db.succeededOf caseId).length := by
  have hlinks : ((db.linksOf caseId).map RecoveryPaymentRequest.recoveryAttemptId).Nodup :=
    hd.linkAttempt.sublist (List.filter_sublist.map _)
  have hattempts : ((db.succeededOf caseId).map RecoveryAttempt.id).Nodup :=
    hd.attemptId.sublist (List.filter_sublist.map _)
  -- The two lists of ids have the same members, and no member twice.
  have hperm : ((db.linksOf caseId).map RecoveryPaymentRequest.recoveryAttemptId).Perm
      ((db.succeededOf caseId).map RecoveryAttempt.id) := by
    refine (List.perm_ext_iff_of_nodup hlinks hattempts).mpr fun id => ?_
    constructor
    · intro hid
      obtain ⟨l, hl, rfl⟩ := List.mem_map.mp hid
      obtain ⟨a, ha, he⟩ := exists_attempt h hl
      exact List.mem_map.mpr ⟨a, ha, he⟩
    · intro hid
      obtain ⟨a, ha, rfl⟩ := List.mem_map.mp hid
      obtain ⟨l, hl, he⟩ := exists_link h ha
      exact List.mem_map.mpr ⟨l, hl, he⟩
  have hlength := hperm.length_eq
  rw [List.length_map, List.length_map] at hlength
  exact hlength

end Aligned

end Db

/-- **Attempts, links and the attempt counter agree** in every committed state of every
run. -/
theorem attempts_agree {w : World} (hw : Reachable w) :
    ∀ c ∈ w.shared.db.recoveryCases, c.Agrees w.shared.db := by
  intro c hc
  have hl := Reachable.lawful hw
  have hi := hl.inStep
  have hd := hl.distinct
  rw [← Reachable.db_eq hw] at hd
  have haligned := hi.aligned
  rw [← Reachable.db_eq hw] at haligned
  have hlinks : c.currentAttemptNumber = (w.shared.db.linksOf c.id).length := by
    rw [Db.length_linksOf, Reachable.db_eq hw]
    -- The row of the case is the one its id finds.
    refine hi.counted.counted c.id c ?_
    rw [← Reachable.db_eq hw]
    exact hd.caseId.get?_of_mem hc
  constructor
  case links => exact hlinks
  case attempts =>
    rw [hlinks, Db.length_eq haligned hd]
  case attemptOf =>
    intro l hl
    obtain ⟨a, ha, hid⟩ := Db.exists_attempt haligned hl
    -- Two attempts with the id of the link are one attempt.
    refine ⟨a, ⟨ha, hid.symm⟩, fun a' ⟨ha', hid'⟩ => ?_⟩
    exact hd.attemptId.eq_of_mem (Db.mem_succeededOf.mp ha').1 (Db.mem_succeededOf.mp ha).1
      (hid'.symm.trans hid.symm)
  case linkOf =>
    intro a ha
    obtain ⟨l, hl, hid⟩ := Db.exists_link haligned ha
    -- Two links of one attempt would share a unique column.
    refine ⟨l, ⟨hl, hid⟩, fun l' ⟨hl', hid'⟩ => ?_⟩
    exact hd.linkAttempt.eq_of_mem (Db.mem_linksOf.mp hl').1 (Db.mem_linksOf.mp hl).1
      (hid'.trans hid.symm)
  case sameCase =>
    intro l hl a ha hid
    constructor
    · -- The attempt of the link is the one given, since ids are unique.
      intro hl
      obtain ⟨a', ha', hid'⟩ := Db.exists_attempt haligned hl
      rwa [hd.attemptId.eq_of_mem ha (Db.mem_succeededOf.mp ha').1 (hid.symm.trans hid'.symm)]
    · intro ha
      obtain ⟨l', hl', hid'⟩ := Db.exists_link haligned ha
      rwa [hd.linkAttempt.eq_of_mem hl (Db.mem_linksOf.mp hl').1 (hid.trans hid'.symm)]

set_option maxRecDepth 10000 in
theorem attempts_agree_executed : ∃ c ∈ (World.empty.after Sample.executed).shared.db.recoveryCases,
    c.currentAttemptNumber = 1 ∧ c.Agrees (World.empty.after Sample.executed).shared.db := by
  have hcase : ∃ c ∈ (World.empty.after Sample.executed).shared.db.recoveryCases,
      c.currentAttemptNumber = 1 := by decide +kernel
  obtain ⟨c, hc, hnumber⟩ := hcase
  exact ⟨c, hc, hnumber, attempts_agree (World.reachable_after _) c hc⟩

end RecoverAI
