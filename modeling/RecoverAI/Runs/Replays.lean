import RecoverAI.Services.WebhookEndpoint
import RecoverAI.Runs.Links

/-!
# Replayed deliveries

A signed body can be delivered again under another dedup key, since the key may come from
a header that is not signed. Such a replay gets past the ledger, and what it does then
depends on the status of the case: it changes a case that it finds EXECUTING, and no
other. `MovedOn` is the condition that it finds none.
-/

namespace RecoverAI

open Interleave

variable {H newer older : History} {t u : Tid} {e : Event} {sts : List Stmt}
  {payload : WebhookPayload}

/-- The payload whose delivery an event starts. -/
def Event.delivers? : Event → Option WebhookPayload
  | .started (.webhook event _) => event.payload?
  | _ => none

/-- The event is a commit. -/
def Event.isCommit : Event → Bool
  | .committed _ => true
  | _ => false

theorem Event.exists_of_isCommit (h : e.isCommit = true) : ∃ sts, e = .committed sts := by
  unfold isCommit at h
  split at h
  · next sts => exact ⟨sts, rfl⟩
  · cases h

namespace History

/-- A delivery of the payload has been handled. -/
def Handled (H : History) (payload : WebhookPayload) : Prop :=
  ∃ p ∈ H, p.2.delivers? = some payload ∧ ∃ q ∈ H, q.1 = p.1 ∧ q.2.isReturn = true

instance (H : History) (payload : WebhookPayload) : Decidable (H.Handled payload) :=
  inferInstanceAs (Decidable (∃ p ∈ H, p.2.delivers? = some payload ∧
    ∃ q ∈ H, q.1 = p.1 ∧ q.2.isReturn = true))

/-- The operation delivers a payload that had been handled when it started. -/
def Replays : History → Tid → Prop
  | [], _ => False
  | (t, e) :: H, u => (t = u ∧ ∃ payload ∈ e.delivers?, Handled H payload) ∨ Replays H u

instance decidableReplays : (H : History) → (u : Tid) → Decidable (Replays H u)
  | [], _ => inferInstanceAs (Decidable False)
  | (t, e) :: H, u =>
    have := decidableReplays H u
    inferInstanceAs (Decidable ((t = u ∧ ∃ payload ∈ e.delivers?, Handled H payload) ∨ Replays H u))

end History

/-- A replay does not find the case of its link executing. -/
def MovedOn (w : World) (a : Action) : Prop :=
  match w.selects? a with
  | some (t, .caseForExecution caseId) => History.Replays w.shared.history t →
      (w.shared.view t).statusOf caseId ≠ some .executing
  | _ => True

instance (w : World) (a : Action) : Decidable (MovedOn w a) := by
  unfold MovedOn
  split <;> infer_instance

/-- The events of a run in which replays find no executing case. -/
def FindsMovedOn (H : History) (t : Tid) (e : Event) : Prop :=
  H.Replays t → ∀ caseId loaded, e = .selected (.caseForExecution caseId) (some loaded) →
    loaded.recoveryCase.status ≠ .executing

theorem extends_of_movedOn {w w' : World} (hw : Reachable w)
    (h : machine.ReachesVia MovedOn w w') :
    Extends FindsMovedOn w.shared.history w'.shared.history := by
  refine extends_of_reachesVia hw h fun w₁ a w₂ t e hw₁ hok hstep hh hreplays caseId loaded he => ?_
  subst he
  obtain ⟨hselect, ids, hresult⟩ := selects?_of_step hstep hh
  rw [MovedOn, hselect] at hok
  have hcase := (Db.caseForExecution_eq_some hresult.symm).1
  intro hexecuting
  refine hok hreplays ?_
  rw [Db.statusOf, hcase, Option.map_some, hexecuting]

/-- Whether an operation is a replay is settled by its start. -/
theorem History.Replays.of_append (h : Lawful (newer ++ older)) (hst : History.own older u ≠ [])
    (hreplays : History.Replays (newer ++ older) u) : History.Replays older u := by
  induction newer with
  | nil => exact hreplays
  | cons p newer ih =>
    obtain ⟨t, e⟩ := p
    have hl : Lawful (newer ++ older) := h.cons_inv.1
    rcases hreplays with ⟨rfl, payload, hdelivers, -⟩ | hreplays
    · -- an operation that has done something starts no more
      cases e with
      | started op =>
        have hnil : History.own (newer ++ older) t = [] := h.cons_inv.2.1
        rw [History.own_append, List.append_eq_nil_iff] at hnil
        exact absurd hnil.2 hst
      | _ => cases hdelivers
    · exact ih hl hreplays

theorem History.replays_of_split {op : Op} (hdelivers : (Event.started op).delivers? = some payload)
    (hhandled : older.Handled payload) :
    History.Replays (newer ++ (u, .started op) :: older) u := by
  induction newer with
  | nil => exact .inl ⟨rfl, payload, hdelivers, hhandled⟩
  | cons p newer ih => exact .inr ih

/-- A transaction of a replay that finds no executing case leaves the cases alone. -/
theorem Extends.cases_of_replays (h : Extends FindsMovedOn [] ((u, .committed sts) :: H))
    {event : ParsedWebhookEvent} {correlationId : String}
    (hst : (u, .started (.webhook event correlationId)) ∈ H) (hreplays : H.Replays u) :
    (History.replay ((u, .committed sts) :: H)).recoveryCases = H.replay.recoveryCases := by
  have hl : Lawful ((u, .committed sts) :: H) := h.mono fun _ _ _ _ => trivial
  have hbefore : Extends FindsMovedOn [] H := by
    cases h with
    | cons before => exact before
  -- what the delivery has read of the case
  have hmoved : ∀ d : Delivery, d.Known (H.own u) H.replay →
      d.loaded.recoveryCase.status ≠ .executing := by
    intro d known
    have hread := History.mem_own.mp (known.reads.subset List.mem_cons_self)
    obtain ⟨newer, older, rfl, -, -, hfinds⟩ := hbefore.split hread
    have hst := hl.cons_inv.1.started_mem (by simp) hst
    have hown : History.own older u ≠ [] := List.ne_nil_of_mem (History.mem_own.mpr hst)
    rw [← List.singleton_append, ← List.append_assoc] at hreplays
    have hl' := hl.cons_inv.1
    rw [← List.singleton_append, ← List.append_assoc] at hl'
    exact hfinds (hreplays.of_append hl' hown) _ _ rfl
  rw [History.replay_cons, Event.applyTo_committed]
  have hnot : ¬ NotDelivery (H.own u) := fun hop =>
    hop.not_started event correlationId (History.mem_own.mpr hst)
  cases Txn.kind hl.cons_inv.2.1 with
  | internal op tables => exact absurd op hnot
  | ingested i rest op known tables => exact absurd op hnot
  | recorded c attempt made link id completedAt correlationId t op => exact absurd op hnot
  | delivered event correlationId started effect =>
    cases effect with
    | ignored irrelevant => rfl
    | unmatched paymentLinkId now linkId read => rfl
    | detached caseId read => rfl
    | observed d now _ _ known movedOn => exact Stmt.frame_recoveryCases d.observeStmts_ne
    | recovered d now now' _ _ known executing paid => exact absurd executing (hmoved d known)
    | failed d attempt now now' _ _ known executing unpaid read =>
      exact absurd executing (hmoved d known)

/-- **A replay is harmless if it finds the case moved on.** In a run in which no replay
finds the case of its link executing, no transaction of a delivery of a body that had
been handled changes a case, whatever the headers of the two deliveries. -/
theorem cases_of_movedOn {w : World} {before : History} {eventId eventId' : Option String}
    {correlationId correlationId' : Option String} {response : Response}
    (h : machine.ReachesVia MovedOn World.empty w)
    (hcommit : w.shared.history = newer ++ (u, .committed sts) :: older)
    (hst : older = H ++ (u, .started (receiveRazorpayWebhook payload eventId correlationId)) :: before)
    (hfirst : (t, .started (receiveRazorpayWebhook payload eventId' correlationId')) ∈ before)
    (hhandled : (t, .ended (some (.ok response))) ∈ before) :
    (History.replay ((u, .committed sts) :: older)).recoveryCases = older.replay.recoveryCases := by
  have hext : Extends FindsMovedOn [] w.shared.history :=
    extends_of_movedOn Machine.Reaches.refl h
  rw [hcommit] at hext
  have hreplays : older.Replays u := by
    rw [hst]
    exact History.replays_of_split rfl ⟨_, hfirst, rfl, _, hhandled, rfl, rfl⟩
  have hmem : (u, .started (receiveRazorpayWebhook payload eventId correlationId)) ∈ older := by
    rw [hst]
    exact List.mem_append_right _ List.mem_cons_self
  exact hext.of_append.cases_of_replays hmem hreplays

namespace Sample

def body (paymentLinkId status : String) (amountPaid : Option Int) : WebhookPayload where
  event := "payment_link." ++ status
  paymentLinkId := some paymentLinkId
  paymentLinkStatus := some status
  amountPaid := amountPaid
  paymentId := none

/-- The delivery of a body with its header, and without. -/
def first (payload : WebhookPayload) : Op := receiveRazorpayWebhook payload (some "e") none

def again (payload : WebhookPayload) : Op := receiveRazorpayWebhook payload none none

/-- The link is paid, and the body is delivered again without its header. -/
def replayed : List Action :=
  executed ++ alone 3 (first (body "L" "paid" (some 500))) (deliver ++ settle) ++
    alone 4 (again (body "L" "paid" (some 500))) (deliver ++ observe)

/-- The link expires, and the case is executed again. -/
def reexecuted : List Action :=
  executed ++ alone 3 (first (body "L" "expired" none)) (deliver ++ settle) ++
    alone 4 (.diagnose 3 "c") (diagnose false .sendPaymentLink) ++
    alone 5 (.execute 3 "c") (execute 20 21 22 "M")

/-- The body is delivered again without its header. -/
def replayedLate : List Action := alone 6 (again (body "L" "expired" none)) (deliver ++ settle)

/-- The start of the replay, and a commit after it. -/
def isReplay (H : History) (u : Tid) (e : Event) : Bool :=
  u = 4 && e.starts (again (body "L" "paid" (some 500))) &&
    (H.any fun p => p.1 = 3 && p.2.starts (first (body "L" "paid" (some 500)))) &&
    H.any fun p => p.1 = 3 && p.2.isReturn

def isReplayCommit (H : History) (u : Tid) (e : Event) : Bool :=
  u = 4 && e.isCommit && decide (0 < History.count isReplay H)

end Sample

set_option maxRecDepth 10000 in
theorem cases_of_movedOn_replayed : ∃ (newer older : History) (u : Tid) (sts : List Stmt),
    (World.empty.after Sample.replayed).shared.history = newer ++ (u, .committed sts) :: older ∧
      0 < History.count Sample.isReplay older ∧
      (History.replay ((u, .committed sts) :: older)).recoveryCases = older.replay.recoveryCases := by
  have hrun : machine.ReachesVia MovedOn World.empty (World.empty.after Sample.replayed) :=
    World.reachesVia_after (by decide +kernel)
  have hcommit : 0 < History.count Sample.isReplayCommit
      (World.empty.after Sample.replayed).shared.history := by decide +kernel
  obtain ⟨newer, older, u, e, hsplit, hu⟩ := History.exists_of_count_pos hcommit
  simp only [Sample.isReplayCommit, Bool.and_eq_true, decide_eq_true_eq] at hu
  obtain ⟨⟨rfl, he⟩, hreplay⟩ := hu
  obtain ⟨sts, rfl⟩ := Event.exists_of_isCommit he
  obtain ⟨H, before, u, e, hst, hu⟩ := History.exists_of_count_pos hreplay
  simp only [Sample.isReplay, Bool.and_eq_true, decide_eq_true_eq, List.any_eq_true] at hu
  obtain ⟨⟨⟨rfl, he⟩, ⟨t, e₁⟩, hfirst, ht, he₁⟩, ⟨t', e₂⟩, hhandled, ht', he₂⟩ := hu
  obtain rfl := Event.eq_of_starts he
  obtain rfl := Event.eq_of_starts he₁
  obtain ⟨response, rfl⟩ := Event.exists_of_isReturn he₂
  obtain rfl : t' = t := ht'.trans ht.symm
  exact ⟨newer, older, 4, sts, hsplit, hreplay, cases_of_movedOn hrun hsplit hst hfirst hhandled⟩

set_option maxRecDepth 10000 in
/-- The replay fails the case that waits for the payment of another link. -/
theorem replayedLate_failed : Reachable (World.empty.after Sample.reexecuted) ∧
    History.Handled (World.empty.after Sample.reexecuted).shared.history
      (Sample.body "L" "expired" none) ∧
    (World.empty.after Sample.reexecuted).shared.db.statusOf 3 = some .executing ∧
    machine.Reaches (World.empty.after Sample.reexecuted)
      ((World.empty.after Sample.reexecuted).after Sample.replayedLate) ∧
    ((World.empty.after Sample.reexecuted).after Sample.replayedLate).shared.db.statusOf 3 =
      some .failed :=
  ⟨World.reachable_after _, by decide +kernel, by decide +kernel, World.reaches_after _ _,
    by decide +kernel⟩

end RecoverAI
