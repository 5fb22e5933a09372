import RecoverAI.Runs.History
import RecoverAI.Runs.Schedules
import RecoverAI.Protocol.Tables

/-!
# The ledger of webhook events

The claim of an event and everything the delivery does about it are one transaction: a
key is in the ledger exactly when one delivery with that key has committed its whole
effect (`Reachable.claimed_iff`), and a delivery that raises has left nothing. A delivery
that is answered as a duplicate can point to such a transaction if its event has a type
(`claimed_iff_existsUnique`). The row of an event without one is refused by the column, and
the refusal is taken for a lost race (`untyped_answeredDuplicate`).
-/

namespace RecoverAI

open Interleave

/-! ### Starts -/

/-- An operation is started once, before anything else it does. -/
theorem Lawful.eq_of_started {H : History} (h : Lawful H) {t : Tid} {op op' : Op}
    (hop : (t, .started op) ∈ H) (hop' : (t, .started op') ∈ H) : op = op' := by
  induction h with
  | refl => cases hop
  | @cons H u e before permitted checked _ ih =>
    have hfirst : ∀ op, e = .started op → ∀ op', (u, .started op') ∉ H := by
      rintro op rfl op' hmem
      have hnil : H.own u = [] := permitted
      have hown := History.mem_own.mpr hmem
      rw [hnil] at hown
      cases hown
    rcases List.mem_cons.mp hop with he | hold <;> rcases List.mem_cons.mp hop' with he' | hold'
    · exact Event.started.inj ((Prod.mk.inj he).2.trans (Prod.mk.inj he').2.symm)
    · obtain ⟨rfl, hevent⟩ := Prod.mk.inj he
      exact absurd hold' (hfirst op hevent.symm op')
    · obtain ⟨rfl, hevent⟩ := Prod.mk.inj he'
      exact absurd hold (hfirst op' hevent.symm op)
    · exact ih hold hold'

/-! ### Deliveries in the record -/

/-- The delivery `t` of an event with this key has committed its whole effect. -/
def Delivers? (H : History) (t : Tid) (key : String) : Prop :=
  ∃ (newer older : History) (event : ParsedWebhookEvent) (correlationId : String)
    (sts : List Stmt), H = newer ++ (t, .committed sts) :: older ∧
    (t, .started (.webhook event correlationId)) ∈ older ∧ event.dedupKey = key ∧
    DeliveryEffect (older.own t) older.replay event correlationId sts

/-- One more event: either it was there, or the event is the transaction. -/
theorem delivers?_cons {H : History} {t u : Tid} {e : Event} {key : String} :
    Delivers? ((u, e) :: H) t key ↔ Delivers? H t key ∨
      ∃ event correlationId sts, (u, e) = (t, .committed sts) ∧
        (t, .started (.webhook event correlationId)) ∈ H ∧ event.dedupKey = key ∧
        DeliveryEffect (History.own H t) (History.replay H) event correlationId sts := by
  constructor
  · rintro ⟨newer, older, event, correlationId, sts, hsplit, h⟩
    cases newer with
    | nil =>
      obtain ⟨he, rfl⟩ := List.cons.inj hsplit
      exact .inr ⟨event, correlationId, sts, he, h⟩
    | cons p newer =>
      obtain ⟨rfl, hrest⟩ := List.cons.inj hsplit
      exact .inl ⟨newer, older, event, correlationId, sts, hrest, h⟩
  · rintro (⟨newer, older, event, correlationId, sts, rfl, h⟩ | ⟨event, correlationId, sts, he, h⟩)
    · exact ⟨(u, e) :: newer, older, event, correlationId, sts, rfl, h⟩
    · rw [he]
      exact ⟨[], H, event, correlationId, sts, rfl, h⟩

/-- A claim that passes its check was free. -/
theorem not_claimed_of_checkAll {db : Db} {sts : List Stmt} {key : String}
    (hc : Store.checkAll sts db = none) (hk : key ∈ sts.filterMap Stmt.claim?) :
    ¬ db.Claimed key := by
  induction sts generalizing db with
  | nil => cases hk
  | cons st sts ih =>
    obtain ⟨hst, hsts⟩ := Store.checkAll_cons_eq_none.mp hc
    intro hclaimed
    have hstill : (Store.apply st db).Claimed key := hclaimed.evolves (.apply hst)
    rw [List.filterMap_cons] at hk
    cases st with
    | insertProcessedWebhookEvent row =>
      rcases List.mem_cons.mp hk with rfl | hk
      · have hfree := Stmt.eq_false_of_unlessTaken hst
        rw [Bool.or_eq_false_iff] at hfree
        rw [Db.Claimed, hfree.2] at hclaimed
        cases hclaimed
      · exact ih hsts hk hstill
    | _ => exact ih hsts hk hstill

/-- What one event does to the claim of a key and to who has delivered it. -/
theorem Lawful.delivers?_step {H : History} {u : Tid} {e : Event} (h : Lawful ((u, e) :: H))
    (key : String) : ∃ new : Prop,
      ((History.replay ((u, e) :: H)).Claimed key ↔ H.replay.Claimed key ∨ new) ∧
      (∀ t, Delivers? ((u, e) :: H) t key ↔ Delivers? H t key ∨ (t = u ∧ new)) ∧
      (new → ¬ H.replay.Claimed key) := by
  obtain ⟨hl, hp, hc⟩ := h.cons_inv
  cases e with
  | committed sts =>
    have hiff : key ∈ sts.filterMap Stmt.claim? ↔ _ := (Txn.kind hp).claims_iff
    refine ⟨key ∈ sts.filterMap Stmt.claim?, Db.claimed_applyAll, fun t => ?_,
      not_claimed_of_checkAll (hc sts rfl)⟩
    rw [delivers?_cons]
    refine or_congr_right ⟨?_, ?_⟩
    · rintro ⟨event, correlationId, sts', he, hst, hkey, heffect⟩
      obtain ⟨rfl, he⟩ := Prod.mk.inj he
      cases he
      exact ⟨rfl, hiff.mpr ⟨event, correlationId, History.mem_own.mpr hst, hkey, heffect⟩⟩
    · rintro ⟨rfl, hk⟩
      obtain ⟨event, correlationId, hst, hkey, heffect⟩ := hiff.mp hk
      exact ⟨event, correlationId, sts, rfl, History.mem_own.mp hst, hkey, heffect⟩
  | _ =>
    refine ⟨False, by rw [or_false]; exact Iff.rfl, fun t => ?_, False.elim⟩
    rw [delivers?_cons]
    simp

theorem Lawful.claimed_iff {H : History} (h : Lawful H) (key : String) :
    (H.replay.Claimed key ↔ ∃ t, Delivers? H t key) ∧
      ∀ t t', Delivers? H t key → Delivers? H t' key → t = t' := by
  induction h with
  | refl =>
    have hnone : ∀ t, ¬ Delivers? [] t key := by
      rintro t ⟨newer, older, _, _, _, hsplit, _⟩
      exact absurd hsplit (by simp)
    refine ⟨iff_of_false (fun hc => by cases hc) fun ⟨t, ht⟩ => hnone t ht, fun t _ ht => ?_⟩
    exact absurd ht (hnone t)
  | @cons H u e before permitted checked _ ih =>
    obtain ⟨hiff, huniq⟩ := ih
    have hlawful : Lawful ((u, e) :: H) := .cons before permitted checked trivial
    obtain ⟨new, hclaimed, hdelivers, hfree⟩ := hlawful.delivers?_step key
    refine ⟨?_, fun t t' ht ht' => ?_⟩
    · rw [hclaimed, hiff]
      constructor
      · rintro (⟨t, ht⟩ | hnew)
        · exact ⟨t, (hdelivers t).mpr (.inl ht)⟩
        · exact ⟨u, (hdelivers u).mpr (.inr ⟨rfl, hnew⟩)⟩
      · rintro ⟨t, ht⟩
        rcases (hdelivers t).mp ht with ht | ⟨-, hnew⟩
        · exact .inl ⟨t, ht⟩
        · exact .inr hnew
    · -- a key that is claimed now was not delivered before
      rcases (hdelivers t).mp ht with hold | ⟨rfl, hnew⟩ <;>
        rcases (hdelivers t').mp ht' with hold' | ⟨rfl, hnew'⟩
      · exact huniq t t' hold hold'
      · exact absurd (hiff.mpr ⟨t, hold⟩) (hfree hnew')
      · exact absurd (hiff.mpr ⟨t', hold'⟩) (hfree hnew)
      · rfl

/-- **Claim and effect are one unit.** In every reachable state a key is in the ledger if
and only if exactly one delivery with that key has committed its whole effect, in the
transaction of the claim. -/
theorem Reachable.claimed_iff {w : World} (hw : Reachable w) (key : String) :
    w.shared.db.Claimed key ↔ ∃! t, Delivers? w.shared.history t key := by
  rw [Reachable.db_eq hw]
  obtain ⟨hiff, huniq⟩ := (Reachable.lawful hw).claimed_iff key
  constructor
  · intro hclaimed
    obtain ⟨t, ht⟩ := hiff.mp hclaimed
    exact ⟨t, ht, fun t' ht' => huniq t' t ht' ht⟩
  · rintro ⟨t, ht, -⟩
    exact hiff.mpr ⟨t, ht⟩

/-! ### How a delivery is answered -/

/-- The step, if it starts a delivery, starts one of an event with a type. -/
def NamesType (_ : World) : Action → Prop
  | .start (.webhook event _) => event.eventType ≠ none
  | _ => True

instance (w : World) (a : Action) : Decidable (NamesType w a) := by
  unfold NamesType
  split <;> infer_instance

/-- The same for an event of a record. -/
def Typed (_ : History) (_ : Tid) (e : Event) : Prop :=
  ∀ event correlationId, e = .started (.webhook event correlationId) → event.eventType ≠ none

theorem extends_of_namesType {w : World} (h : machine.ReachesVia NamesType World.empty w) :
    Extends Typed [] w.shared.history := by
  refine extends_of_reachesVia (w := World.empty) Machine.Reaches.refl h ?_
  intro w a w' t e _ hok hstep hh event correlationId he
  subst he
  have ha := started_of_step hstep hh
  subst ha
  exact hok

/-- What a delivery has done when it ends with this outcome. -/
theorem Reachable.delivered {w : World} (hw : Reachable w) {t : Tid} {event : ParsedWebhookEvent}
    {correlationId : String} {outcome : Outcome}
    (hst : (t, .started (.webhook event correlationId)) ∈ w.shared.history)
    (hended : (t, .ended (some outcome)) ∈ w.shared.history) :
    (∀ result, outcome = .ok (.webhookProcessed result) → result.status = .duplicate →
      commits (w.shared.own t) = [] ∧
        (event.eventType ≠ none → w.shared.db.Claimed event.dedupKey)) ∧
    ∀ e, outcome = .error e → commits (w.shared.own t) = [] := by
  have hl := Reachable.lawful hw
  obtain ⟨newer, older, hsplit, -, hp, hown⟩ := Reachable.own_of_ended hw hended
  have hown : w.shared.own t = .ended (some outcome) :: older.own t := hown
  have hst : .started (.webhook event correlationId) ∈ older.own t := by
    have hmem : .started (.webhook event correlationId) ∈ w.shared.own t :=
      History.mem_own.mpr hst
    rw [hown] at hmem
    exact (List.mem_cons.mp hmem).resolve_left (by simp)
  have hdelivered := hp.delivered event correlationId hst
  rw [hown]
  refine ⟨?_, ?_⟩
  · rintro result rfl hdup
    simp only [Delivered, hdup, if_true] at hdelivered
    refine ⟨hdelivered, fun htype => ?_⟩
    -- the key was claimed when the delivery ended, and claims stay
    have hclaimed := hp.claimed event correlationId hst htype ⟨_, rfl⟩
    rw [Reachable.db_eq hw, hsplit]
    rw [hsplit] at hl
    exact hclaimed.evolves hl.evolves_of_split
  · rintro e rfl
    exact hdelivered

/-- **Claim and effect, and the answers.** In every run whose deliveries are of events with a
type, and in every state it reaches: a key is in the ledger if and only if exactly one delivery
with that key has committed its whole effect, in the transaction of the claim; a delivery
that is answered as a duplicate implies such a transaction; and a delivery that raises has
committed nothing. -/
theorem claimed_iff_existsUnique {w : World} (h : machine.ReachesVia NamesType World.empty w)
    (key : String) :
    (w.shared.db.Claimed key ↔ ∃! t, Delivers? w.shared.history t key) ∧
    ∀ t event correlationId outcome,
      (t, .started (.webhook event correlationId)) ∈ w.shared.history →
      (t, .ended (some outcome)) ∈ w.shared.history →
      (∀ result, outcome = .ok (.webhookProcessed result) → result.status = .duplicate →
        commits (w.shared.own t) = [] ∧ ∃! u, Delivers? w.shared.history u event.dedupKey) ∧
      (∀ e, outcome = .error e → commits (w.shared.own t) = []) := by
  have hw : Reachable w := h.reaches
  refine ⟨hw.claimed_iff key, fun t event correlationId outcome hst hended => ?_⟩
  obtain ⟨hduplicate, hraised⟩ := hw.delivered hst hended
  refine ⟨fun result hr hdup => ?_, hraised⟩
  obtain ⟨_, _, _, _, _, htyped⟩ := (extends_of_namesType h).split hst
  obtain ⟨hnone, hclaimed⟩ := hduplicate result hr hdup
  exact ⟨hnone, (hw.claimed_iff event.dedupKey).mp (hclaimed (htyped event correlationId rfl))⟩

namespace Sample

/-- A link that is paid in full, and the same event once more. -/
def redelivered : List Action :=
  executed ++ alone 3 (.webhook (event "k" "L" "paid" (some 500)) "c") (deliver ++ settle) ++
    alone 4 (.webhook (event "k" "L" "paid" (some 500)) "c") [.ranking []]

/-- The same event with null in the place of its type, delivered once. -/
def untyped : List Action :=
  executed ++ alone 3 (.webhook { event "k" "L" "paid" (some 500) with eventType := none } "c")
    [.ranking [], .go, .go]

end Sample

set_option maxRecDepth 10000 in
/-- The second delivery is answered as a duplicate, and the first has committed. -/
theorem claimed_iff_existsUnique_redelivered :
    (World.empty.after Sample.redelivered).shared.db.Claimed "k" ∧
      (∃! t, Delivers? (World.empty.after Sample.redelivered).shared.history t "k") ∧
      ∀ outcome, (4, .ended (some outcome)) ∈
          (World.empty.after Sample.redelivered).shared.history →
        ∀ result, outcome = .ok (.webhookProcessed result) → result.status = .duplicate →
          commits ((World.empty.after Sample.redelivered).shared.own 4) = [] := by
  have hclaimed : (World.empty.after Sample.redelivered).shared.db.Claimed "k" := by
    unfold Db.Claimed
    decide +kernel
  have hst : (4, .started (.webhook (Sample.event "k" "L" "paid" (some 500)) "c")) ∈
      (World.empty.after Sample.redelivered).shared.history :=
    History.started_mem_of_any (by decide +kernel)
  have hvia : machine.ReachesVia NamesType World.empty (World.empty.after Sample.redelivered) :=
    World.reachesVia_after (by decide +kernel)
  obtain ⟨hiff, hends⟩ := claimed_iff_existsUnique hvia "k"
  exact ⟨hclaimed, hiff.mp hclaimed, fun outcome hended result hr hdup =>
    ((hends 4 _ "c" outcome hst hended).1 result hr hdup).1⟩

/-- The delivery was answered as a duplicate. -/
def Event.answersDuplicate : Event → Bool
  | .ended (some (.ok (.webhookProcessed result))) => result.status = .duplicate
  | _ => false

theorem Event.exists_of_answersDuplicate {e : Event} (h : e.answersDuplicate = true) :
    ∃ result, e = .ended (some (.ok (.webhookProcessed result))) ∧ result.status = .duplicate := by
  unfold answersDuplicate at h
  split at h
  · next result => exact ⟨result, rfl, of_decide_eq_true h⟩
  · cases h

set_option maxRecDepth 10000 in
/-- **A duplicate of nothing.** The row of an event without a type is refused, the refusal is
taken for a lost race, and the event is answered as a duplicate though no delivery of it has
committed. -/
theorem untyped_answeredDuplicate :
    ¬ ∀ (w : World) (t : Tid) (event : ParsedWebhookEvent) (correlationId : String)
      (result : WebhookProcessResult), Reachable w →
      (t, .started (.webhook event correlationId)) ∈ w.shared.history →
      (t, .ended (some (.ok (.webhookProcessed result)))) ∈ w.shared.history →
      result.status = .duplicate → ∃! u, Delivers? w.shared.history u event.dedupKey := by
  intro h
  have hw : Reachable (World.empty.after Sample.untyped) := World.reachable_after _
  have hst : (3, .started (.webhook
      { Sample.event "k" "L" "paid" (some 500) with eventType := none } "c")) ∈
      (World.empty.after Sample.untyped).shared.history :=
    History.started_mem_of_any (by decide +kernel)
  have hany : ((World.empty.after Sample.untyped).shared.history.any
      fun p => p.1 = 3 && p.2.answersDuplicate) = true := by decide +kernel
  obtain ⟨⟨t, e⟩, hended, he⟩ := List.any_eq_true.mp hany
  rw [Bool.and_eq_true, decide_eq_true_eq] at he
  obtain ⟨rfl, he⟩ := he
  obtain ⟨result, heq, hdup⟩ := Event.exists_of_answersDuplicate he
  obtain rfl : e = _ := heq
  have hclaimed := (hw.claimed_iff "k").mpr (h _ 3 _ "c" result hw hst hended hdup)
  rw [Db.Claimed, show Stmt.taken _ _ "k" = false by decide +kernel] at hclaimed
  cases hclaimed

end RecoverAI
