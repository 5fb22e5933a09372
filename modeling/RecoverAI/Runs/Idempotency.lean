import RecoverAI.Runs.Attempts

/-!
# References are sent once

An execution draws a reference, notes it as the idempotency key of its attempt and only then
sends it to the provider. Nothing promises that the drawn reference is new. What does is the
unique index on the key, which lets the attempt be committed only if no other has the key:
whatever is drawn, and however the executions interleave, no reference is sent to the provider
twice (`references_sent_once`), and the one attempt that has it says for which case it was sent.
-/

namespace RecoverAI

open Interleave

variable {H : History} {t u : Tid} {e : Event} {sts : List Stmt} {db : Db}

/-! ### The unique index -/

/-- The idempotency keys of the attempts. -/
def Db.idempotencyKeys (db : Db) : List String :=
  db.recoveryAttempts.filterMap RecoveryAttempt.idempotencyKey

theorem Db.mem_idempotencyKeys {key : String} : key ∈ db.idempotencyKeys ↔
    ∃ a ∈ db.recoveryAttempts, a.idempotencyKey = some key := List.mem_filterMap

theorem Db.taken_iff {key : String} :
    Stmt.taken db.recoveryAttempts RecoveryAttempt.idempotencyKey (some key) = true ↔
      key ∈ db.idempotencyKeys := by
  rw [mem_idempotencyKeys, Stmt.taken, List.any_eq_true]
  simp only [decide_eq_true_eq]

/-- A statement adds the key of the attempt it inserts. -/
theorem Db.idempotencyKeys_apply (st : Stmt) (db : Db) : (st.apply db).idempotencyKeys =
    db.idempotencyKeys ++ (st.attemptInsert?.bind RecoveryAttempt.idempotencyKey).toList := by
  cases st with
  | insertAttempt row =>
    change (db.recoveryAttempts ++ [row]).filterMap _ = _
    rw [List.filterMap_append]
    change _ ++ [row].filterMap _ = _ ++ Option.toList row.idempotencyKey
    cases hkey : row.idempotencyKey <;> simp [hkey, Db.idempotencyKeys]
  | updateAttempt before after =>
    -- the key is not among the columns an update writes
    have hkept : ∀ r : RecoveryAttempt,
        (if Keyed.key r = before.id then before.write after r else r).idempotencyKey =
          r.idempotencyKey := by
      intro r
      split <;> rfl
    change (Table.update db.recoveryAttempts before.id (before.write after)).filterMap _ = _
    rw [Table.update, List.filterMap_map]
    refine Eq.trans ?_ (List.append_nil _).symm
    exact List.filterMap_congr fun r _ => hkept r
  | _ => exact (List.append_nil _).symm

/-- **The index keeps the keys apart**, and an inserted one is new. -/
theorem Db.idempotencyKeys_nodup_apply {st : Stmt} (h : db.idempotencyKeys.Nodup)
    (hc : st.check db = none) : (st.apply db).idempotencyKeys.Nodup := by
  rw [idempotencyKeys_apply]
  cases hkey : st.attemptInsert?.bind RecoveryAttempt.idempotencyKey with
  | none => simpa using h
  | some key =>
    obtain ⟨row, hrow, hkey⟩ := Option.bind_eq_some_iff.mp hkey
    cases st with
    | insertAttempt row' =>
      obtain rfl : row' = row := Option.some.inj hrow
      have hfree := Stmt.eq_false_of_unlessTaken hc
      rw [Bool.or_eq_false_iff, hkey, Option.isSome_some, Bool.true_and] at hfree
      have hnew : key ∉ db.idempotencyKeys := fun hmem => by
        rw [taken_iff.mpr hmem] at hfree
        cases hfree.2
      rw [Option.toList_some, List.nodup_append]
      refine ⟨h, List.nodup_singleton _, fun k hk k' hk' => ?_⟩
      rw [List.mem_singleton.mp hk']
      rintro rfl
      exact hnew hk
    | _ => cases hrow

theorem Lawful.idempotencyKeys_nodup (h : Lawful H) : H.replay.idempotencyKeys.Nodup := by
  induction h using Lawful.induction with
  | refl => exact List.nodup_nil
  | @cons H t e before hlawful ih =>
    cases e with
    | committed sts =>
      exact Store.applyAll_invariant_of_checkAll (I := fun db : Db => db.idempotencyKeys.Nodup)
        (fun _ _ hst hdb => Db.idempotencyKeys_nodup_apply hdb hst) (hlawful.cons_inv.2.2 sts rfl) ih
    | _ => exact ih

/-- Keys stay. -/
theorem Db.idempotencyKeys_prefix_applyAll (sts : List Stmt) (db : Db) :
    db.idempotencyKeys <+: (Store.applyAll sts db).idempotencyKeys := by
  induction sts generalizing db with
  | nil => exact List.prefix_rfl
  | cons st sts ih =>
    refine List.IsPrefix.trans ?_ (ih (st.apply db))
    rw [idempotencyKeys_apply]
    exact List.prefix_append _ _

/-- An attempt that is inserted has a key of its own, and is there after. -/
theorem Db.attemptSeen_of_insert {a : RecoveryAttempt} (hc : Store.checkAll sts db = none)
    (hmem : .insertAttempt a ∈ sts) : (Store.applyAll sts db).AttemptSeen a ∧
      ∀ key, a.idempotencyKey = some key → key ∉ db.idempotencyKeys := by
  obtain ⟨pre, post, rfl⟩ := List.append_of_mem hmem
  rw [Store.checkAll_append, Option.or_eq_none_iff, Store.checkAll_cons_eq_none] at hc
  obtain ⟨-, hinsert, hpost⟩ := hc
  have hfree := Stmt.eq_false_of_unlessTaken hinsert
  rw [Bool.or_eq_false_iff] at hfree
  constructor
  · have hid : (Store.applyAll pre db).recoveryAttempts.get? a.id = none := by
      rw [← Option.isNone_iff_eq_none, ← Option.isSome_eq_false_iff]
      exact hfree.1
    have hrow : ((Stmt.insertAttempt a).apply
        (Store.applyAll pre db)).recoveryAttempts.get? a.id = some a := by
      change Table.get? ((Store.applyAll pre db).recoveryAttempts ++ [a]) a.id = some a
      rw [Table.get?_append, hid, Option.none_or, Table.get?_singleton]
      exact if_pos rfl
    rw [Store.applyAll_append]
    exact (AttemptSeen.of_get? hrow).evolves (.applyAll hpost)
  · rintro key hkey hold
    -- a key of an earlier attempt is still taken when the statement is checked
    have hlater := (idempotencyKeys_prefix_applyAll pre db).subset hold
    rw [hkey, Option.isSome_some, Bool.true_and, taken_iff.mpr hlater] at hfree
    cases hfree.2

/-- A key tells attempts apart. -/
theorem Db.eq_of_idempotencyKey {key : String} {a a' : RecoveryAttempt}
    (h : db.idempotencyKeys.Nodup) (ha : a ∈ db.recoveryAttempts) (ha' : a' ∈ db.recoveryAttempts)
    (hkey : a.idempotencyKey = some key) (hkey' : a'.idempotencyKey = some key) : a = a' := by
  have hpairs : db.recoveryAttempts.Pairwise fun a a' => ∀ b, a.idempotencyKey = some b →
      ∀ b', a'.idempotencyKey = some b' → b ≠ b' := List.pairwise_filterMap.mp h
  have hsymm : Std.Symm fun a a' : RecoveryAttempt => ∀ b, a.idempotencyKey = some b →
      ∀ b', a'.idempotencyKey = some b' → b ≠ b' :=
    ⟨fun _ _ h b hb b' hb' => (h b' hb' b hb).symm⟩
  by_contra hne
  exact hpairs.forall ha ha' hne key hkey key hkey' rfl

/-! ### What is sent -/

/-- The reference a call of the provider carries, and the case it is made for. -/
def Event.sent? : Event → Option (String × Uuid)
  | .created caseId request _ _ => some (request.referenceId, caseId)
  | _ => none

/-- What has been sent to the provider. -/
def History.sent (H : History) : List (String × Uuid) := H.filterMap fun p => p.2.sent?

theorem History.sent_cons (p : Tid × Event) (H : History) :
    History.sent (p :: H) = p.2.sent?.toList ++ H.sent := by
  rw [sent, List.filterMap_cons]
  cases p.2.sent? <;> rfl

/-- An attempt that is noted and not yet sent. -/
def Phase.unsent? : Phase → Option RecoveryAttempt
  | .attempted _ a => some a
  | _ => none

theorem Phase.unsent?_next {p : Phase} {e : Event} {a : RecoveryAttempt}
    (h : (p.next e).unsent? = some a) : p.unsent? = some a ∧ e.sent? = none ∨
      ∃ sts, e = .committed sts ∧ sts.findSome? Stmt.attemptInsert? = some a := by
  rcases of_next unsent? rfl h with hp | ⟨sts, rfl⟩ |
    ⟨_, _, _, _, _, _, rfl, -, hp⟩ | ⟨_, _, _, _, _, _, rfl, -, hp⟩
  · cases e with
    | created caseId request made answer =>
      cases p with
      | attempted c a' => cases of_unlessRaised unsent? rfl h
      | _ => cases hp
    | _ => exact .inl ⟨hp, rfl⟩
  · cases p with
    | idle =>
      simp only [next] at h
      split at h <;> cases h
    | claimed c =>
      simp only [next] at h
      split at h
      · next a' ha =>
        cases h
        exact .inr ⟨sts, rfl, ha⟩
      · cases h
    | _ => cases h
  · cases hp
  · cases hp

theorem Phase.hand?_of_unsent? {p : Phase} {a : RecoveryAttempt} (h : p.unsent? = some a) :
    ∃ c, p.hand? = some (c, a) := by
  cases p with
  | attempted c a' =>
    cases h
    exact ⟨c, rfl⟩
  | _ => cases h

/-- An attempt waits to be sent after an event if it did before, or has just been noted. -/
theorem unsent?_cons {a : RecoveryAttempt}
    (ha : (phase (History.own ((t, e) :: H) u)).unsent? = some a) :
    (phase (H.own u)).unsent? = some a ∧ (u = t → e.sent? = none) ∨
      ∃ sts, e = .committed sts ∧ u = t ∧ sts.findSome? Stmt.attemptInsert? = some a := by
  by_cases hu : u = t
  case neg =>
    rw [History.own_cons_ne hu] at ha
    exact .inl ⟨ha, fun he => absurd he hu⟩
  subst hu
  rw [History.own_cons_self, phase_cons] at ha
  rcases Phase.unsent?_next ha with ⟨ha, hsent⟩ | ⟨sts, rfl, hinsert⟩
  · exact .inl ⟨ha, fun _ => hsent⟩
  · exact .inr ⟨sts, rfl, rfl, hinsert⟩

theorem insertAttempt_mem_of_findSome? {a : RecoveryAttempt}
    (h : sts.findSome? Stmt.attemptInsert? = some a) : .insertAttempt a ∈ sts := by
  obtain ⟨st, hst, hinsert⟩ := List.exists_of_findSome?_eq_some h
  cases st with
  | insertAttempt a' =>
    cases hinsert
    exact hst
  | _ => cases hinsert

/-- Each reference that was sent is the key of an attempt of its case, and no attempt with that
key waits to be sent. -/
structure SentOnce (H : History) : Prop where
  nodup : (H.sent.map Prod.fst).Nodup
  noted : ∀ x ∈ H.sent, ∃ a ∈ H.replay.recoveryAttempts, a.idempotencyKey = some x.1 ∧
    a.recoveryCaseId = x.2
  seen : ∀ u a, (phase (H.own u)).unsent? = some a → H.replay.AttemptSeen a
  unsent : ∀ u a key, (phase (H.own u)).unsent? = some a → a.idempotencyKey = some key →
    key ∉ H.sent.map Prod.fst

/-- What was noted stays noted. -/
theorem noted_evolves {db db' : Db} {x : String × Uuid} (hd : db.Distinct) (he : db.Evolves db')
    (h : ∃ a ∈ db.recoveryAttempts, a.idempotencyKey = some x.1 ∧ a.recoveryCaseId = x.2) :
    ∃ a ∈ db'.recoveryAttempts, a.idempotencyKey = some x.1 ∧ a.recoveryCaseId = x.2 := by
  obtain ⟨a, ha, hkey, hcase⟩ := h
  obtain ⟨a', ha', hbecomes⟩ := he.attempt _ _ (hd.attemptId.get?_of_mem ha)
  exact ⟨a', Table.mem_of_get? ha', hbecomes.idempotencyKey.trans hkey,
    hbecomes.recoveryCaseId.trans hcase⟩

/-- **A commit sends nothing**, and the attempt it notes has a new key. -/
theorem SentOnce.of_commit (hi : SentOnce H) (h : Lawful ((t, .committed sts) :: H)) :
    SentOnce ((t, .committed sts) :: H) := by
  have hc := h.cons_inv.2.2 sts rfl
  have hevolves := h.evolves_cons
  have hsent : History.sent ((t, .committed sts) :: H) = H.sent := History.sent_cons _ _
  refine ⟨?_, fun x hx => ?_, fun u a ha => ?_, fun u a key ha hkey => ?_⟩
  · rw [hsent]
    exact hi.nodup
  · rw [hsent] at hx
    exact noted_evolves h.cons_inv.1.distinct hevolves (hi.noted x hx)
  · rcases unsent?_cons ha with ⟨ha, -⟩ | ⟨sts', heq, -, hinsert⟩
    · exact (hi.seen u a ha).evolves hevolves
    · cases heq
      exact (Db.attemptSeen_of_insert hc (insertAttempt_mem_of_findSome? hinsert)).1
  · rw [hsent]
    rcases unsent?_cons ha with ⟨ha, -⟩ | ⟨sts', heq, -, hinsert⟩
    · exact hi.unsent u a key ha hkey
    · cases heq
      intro hmem
      obtain ⟨x, hx, rfl⟩ := List.mem_map.mp hmem
      obtain ⟨a', ha', hkey', -⟩ := hi.noted x hx
      have hnew := (Db.attemptSeen_of_insert hc (insertAttempt_mem_of_findSome? hinsert)).2
      exact hnew x.1 hkey (Db.mem_idempotencyKeys.mpr ⟨a', ha', hkey'⟩)

/-- **A call sends the key of the attempt in hand**, which nobody else has in hand. -/
theorem SentOnce.of_call {caseId : Uuid} {request : CreatePaymentLinkRequest}
    {made : Option PaymentLinkSnapshot} {answer : Except ProviderException PaymentLinkSnapshot}
    (hi : SentOnce H) (h : Lawful ((t, .created caseId request made answer) :: H)) :
    SentOnce ((t, .created caseId request made answer) :: H) := by
  obtain ⟨hbefore, hp, -⟩ := h.cons_inv
  obtain ⟨-, x, attempt, hcalled⟩ := hp
  have hunsent : (phase (H.own t)).unsent? = some attempt := by
    rw [hcalled.attempted]
    rfl
  have hseen := hi.seen t attempt hunsent
  have hsent : History.sent ((t, .created caseId request made answer) :: H) =
      (request.referenceId, caseId) :: H.sent := History.sent_cons _ _
  refine ⟨?_, fun y hy => ?_, fun u a ha => ?_, fun u a key ha hkey => ?_⟩
  · rw [hsent, List.map_cons, List.nodup_cons]
    exact ⟨hi.unsent t attempt _ hunsent hcalled.reference, hi.nodup⟩
  · rw [hsent] at hy
    rcases List.mem_cons.mp hy with rfl | hy
    · obtain ⟨a, ha, hbecomes⟩ := hseen
      exact ⟨a, Table.mem_of_get? ha, hbecomes.idempotencyKey.trans hcalled.reference,
        hbecomes.recoveryCaseId.trans hcalled.attemptCase⟩
    · exact hi.noted y hy
  · rcases unsent?_cons ha with ⟨ha, -⟩ | ⟨sts, heq, -⟩
    · exact hi.seen u a ha
    · cases heq
  · rcases unsent?_cons ha with ⟨ha, hother⟩ | ⟨sts, heq, -⟩
    case inr => cases heq
    rw [hsent, List.map_cons, List.mem_cons, not_or]
    refine ⟨?_, hi.unsent u a key ha hkey⟩
    rintro rfl
    -- the row under the key is the attempt of both, so both are in the hand of `t`
    obtain ⟨r, hr, hbecomes⟩ := hseen
    obtain ⟨r', hr', hbecomes'⟩ := hi.seen u a ha
    have hrow : r = r' := Db.eq_of_idempotencyKey hbefore.idempotencyKeys_nodup
      (Table.mem_of_get? hr) (Table.mem_of_get? hr')
      (hbecomes.idempotencyKey.trans hcalled.reference) (hbecomes'.idempotencyKey.trans hkey)
    have hid : attempt.id = a.id := hbecomes.id.symm.trans ((congrArg _ hrow).trans hbecomes'.id)
    obtain ⟨c, hand⟩ := Phase.hand?_of_unsent? hunsent
    obtain ⟨c', hand'⟩ := Phase.hand?_of_unsent? ha
    have hu : u = t := (hbefore.inStep.handed.apart t u c c' attempt a hand hand' hid).symm
    cases hother hu

theorem Lawful.sentOnce (h : Lawful H) : SentOnce H := by
  induction h using Lawful.induction with
  | refl =>
    refine ⟨List.nodup_nil, fun x hx => ?_, fun u a ha => ?_, fun u a key ha => ?_⟩
    · cases hx
    · cases ha
    · cases ha
  | @cons H t e before hlawful ih =>
    cases e with
    | committed sts => exact ih.of_commit hlawful
    | created caseId request made answer => exact ih.of_call hlawful
    | _ =>
      refine ⟨ih.nodup, ih.noted, fun u a ha => ?_, fun u a key ha => ?_⟩
      · exact ih.seen u a ((unsent?_cons ha).resolve_right nofun).1
      · exact ih.unsent u a key ((unsent?_cons ha).resolve_right nofun).1

/-- **No reference is sent to the provider twice**, in any run, whatever is drawn for it. The
one attempt it is the key of is an attempt of the case the call was made for. -/
theorem references_sent_once {w : World} (hw : Reachable w) :
    ((History.sent w.shared.history).map Prod.fst).Nodup ∧ ∀ x ∈ History.sent w.shared.history,
      ∃! a, a ∈ w.shared.db.recoveryAttempts ∧ a.idempotencyKey = some x.1 ∧
        a.recoveryCaseId = x.2 := by
  have hl := Reachable.lawful hw
  have hi := hl.sentOnce
  refine ⟨hi.nodup, fun x hx => ?_⟩
  rw [Reachable.db_eq hw]
  obtain ⟨a, ha, hkey, hcase⟩ := hi.noted x hx
  refine ⟨a, ⟨ha, hkey, hcase⟩, fun a' ⟨ha', hkey', _⟩ => ?_⟩
  exact Db.eq_of_idempotencyKey hl.idempotencyKeys_nodup ha' ha hkey' hkey

set_option maxRecDepth 10000 in
/-- A run with two calls. -/
theorem references_sent_once_expired :
    (History.sent (World.empty.after Sample.expired).shared.history).length = 2 ∧
      ((History.sent (World.empty.after Sample.expired).shared.history).map Prod.fst).Nodup :=
  ⟨by decide +kernel, (references_sent_once (World.reachable_after Sample.expired)).1⟩

end RecoverAI
