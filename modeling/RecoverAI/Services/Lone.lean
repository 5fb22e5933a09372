import Mathlib.Algebra.Order.BigOperators.Group.List
import Mathlib.Algebra.Order.Group.Nat
import RecoverAI.Framework.Lone
import RecoverAI.Services.System

/-!
# Services that run alone

`Service.Yields` says what a service returns, and what it does to the database, when no
other transaction is open: it does not raise, and it ends with certain statements flushed
and certain fresh UUIDs still to come. What the environment answers beyond that, the clock
and the order of rows of equal time, is whatever it is.
-/

namespace RecoverAI

open Interleave

/-- The UUID an input is, if it is one. -/
def Input.uuid? : Input → Option Uuid
  | .uuid id => some id
  | _ => none

/-- The UUIDs among the inputs, in the order in which they will be drawn. -/
def uuidsOf (is : List Input) : List Uuid := is.filterMap Input.uuid?

/-- The input is no settings but these. -/
def Input.Under (settings : Settings) : Input → Prop
  | .settings s => s = settings
  | _ => True

/-- No UUID repeats, and none is the key of a customer, a payment or a case that is there. -/
structure Db.Fresh (db : Db) (us : List Uuid) : Prop where
  nodup : us.Nodup
  customer : ∀ id ∈ us, db.customers.get? id = none
  payment : ∀ id ∈ us, db.payments.get? id = none
  recoveryCase : ∀ id ∈ us, db.recoveryCases.get? id = none

theorem Db.Fresh.nil (db : Db) : db.Fresh [] :=
  ⟨List.nodup_nil, fun _ h => absurd h List.not_mem_nil, fun _ h => absurd h List.not_mem_nil,
    fun _ h => absurd h List.not_mem_nil⟩

namespace Service

/-- Alone, on top of the statements `sts` over `db` and with the UUIDs `us` to draw, the
service returns as `Q` says: of its result, of the database, the statements and the UUIDs. -/
def Yields {α : Type} (t : Tid) (x : Service α) (db : Db) (sts : List Stmt) (us : List Uuid)
    (Q : α → Db → List Stmt → List Uuid → Prop) : Prop :=
  ∀ (s : State) (is : List Input), s.toTxns = .only t db sts → uuidsOf is = us →
    machine.Ensures t x.run s is fun r s' is' =>
      ∃ a db' sts', r = .ok a ∧ s'.toTxns = .only t db' sts' ∧ Q a db' sts' (uuidsOf is')

section Rules

variable {α β : Type} {t : Tid} {db : Db} {sts : List Stmt} {us : List Uuid}

theorem yields_pure {a : α} {Q : α → Db → List Stmt → List Uuid → Prop} (h : Q a db sts us) :
    Yields t (pure a) db sts us Q := by
  rintro s is hs rfl
  exact Machine.ensures_done ⟨a, db, sts, rfl, hs, h⟩

theorem Yields.bind {x : Service α} {f : α → Service β} {Q : β → Db → List Stmt → List Uuid → Prop}
    (h : Yields t x db sts us fun a db' sts' us' => Yields t (f a) db' sts' us' Q) :
    Yields t (x >>= f) db sts us Q := by
  intro s is hs hus
  refine Machine.Ensures.bind ((h s is hs hus).mono ?_)
  rintro r s' is' ⟨a, db', sts', rfl, hs', ha⟩
  exact ha s' is' hs' rfl

theorem Yields.mono {x : Service α} {Q Q' : α → Db → List Stmt → List Uuid → Prop}
    (h : Yields t x db sts us Q) (hQ : ∀ a db' sts' us', Q a db' sts' us' → Q' a db' sts' us') :
    Yields t x db sts us Q' := by
  intro s is hs hus
  refine (h s is hs hus).mono ?_
  rintro r s' is' ⟨a, db', sts', rfl, hs', ha⟩
  exact ⟨a, db', sts', rfl, hs', hQ a db' sts' _ ha⟩

theorem Yields.map {x : Service α} {f : α → β} {Q : β → Db → List Stmt → List Uuid → Prop}
    (h : Yields t x db sts us fun a => Q (f a)) : Yields t (f <$> x) db sts us Q := by
  rw [map_eq_pure_bind]
  exact Yields.bind (h.mono fun _ _ _ _ => yields_pure)

/-- What returns is not caught. -/
theorem Yields.tryCatch {x : Service α} {f : Raised → Service α}
    {Q : α → Db → List Stmt → List Uuid → Prop} (h : Yields t x db sts us Q) :
    Yields t (tryCatch x f) db sts us Q := by
  intro s is hs hus
  change machine.Ensures t (ExceptT.tryCatch x f) s is _
  refine Machine.Ensures.bind ((h s is hs hus).mono ?_)
  rintro r s' is' ⟨a, db', sts', rfl, hs', ha⟩
  exact Machine.ensures_done ⟨a, db', sts', rfl, hs', ha⟩

/-- A command of which every step is known. -/
private theorem yields_perform {c : Cmd} {Q : c.Reply → Db → List Stmt → List Uuid → Prop}
    (h : ∀ (s s' : State) i r is', s.toTxns = .only t db sts → uuidsOf (i :: is') = us →
      exec t c i s = some (r, s') →
      ∃ db' sts', s'.toTxns = .only t db' sts' ∧ Q r db' sts' (uuidsOf is')) :
    Yields t (perform c) db sts us Q := by
  intro s is hs hus
  refine Machine.ensures_call fun i is' r s' his he => Machine.ensures_done ?_
  rw [his] at hus
  obtain ⟨db', sts', hs', hQ⟩ := h s s' i r is' hs hus (machine_exec_eq_some.mp he).1
  exact ⟨r, db', sts', rfl, hs', hQ⟩

theorem yields_select {q : Query} {Q : q.Result → Db → List Stmt → List Uuid → Prop}
    (h : ∀ ranking, Q (q.eval (Store.applyAll sts db) ranking) db sts us) :
    Yields t (select q) db sts us Q := by
  refine yields_perform fun s s' i r is' hs hus he => ?_
  cases i with
  | ranking ids =>
    obtain ⟨rfl, rfl⟩ := Prod.mk.inj (Option.some.inj he)
    refine ⟨db, sts, hs, ?_⟩
    rw [hs, Txns.only_view]
    exact hus ▸ h ids
  | _ => cases he

theorem yields_now {Q : Time → Db → List Stmt → List Uuid → Prop} (h : ∀ time, Q time db sts us) :
    Yields t now db sts us Q := by
  refine yields_perform fun s s' i r is' hs hus he => ?_
  cases i with
  | time at_ =>
    obtain ⟨rfl, rfl⟩ := Prod.mk.inj (Option.some.inj he)
    exact ⟨db, sts, hs, hus ▸ h at_⟩
  | _ => cases he

theorem yields_uuid4 {Q : Uuid → Db → List Stmt → List Uuid → Prop}
    (h : ∀ id us', us = id :: us' → Q id db sts us') : Yields t uuid4 db sts us Q := by
  refine yields_perform fun s s' i r is' hs hus he => ?_
  cases i with
  | uuid id =>
    obtain ⟨rfl, rfl⟩ := Prod.mk.inj (Option.some.inj he)
    exact ⟨db, sts, hs, h id _ hus.symm⟩
  | _ => cases he

theorem yields_commit {Q : Unit → Db → List Stmt → List Uuid → Prop}
    (h : Q () (Store.applyAll sts db) [] us) : Yields t commit db sts us Q := by
  refine yields_perform fun s s' i r is' hs hus he => ?_
  cases i with
  | go =>
    obtain ⟨-, rfl⟩ := Prod.mk.inj (Option.some.inj he)
    refine ⟨_, [], ?_, hus ▸ h⟩
    change s.toTxns.commit t = _
    rw [hs, Txns.only_commit]
  | _ => cases he

/-- Statements that pass their checks are flushed. -/
theorem yields_flush {sts' : List Stmt} {Q : Unit → Db → List Stmt → List Uuid → Prop}
    (hc : Store.checkAll sts' (Store.applyAll sts db) = none) (h : Q () db (sts ++ sts') us) :
    Yields t (flush sts') db sts us Q := by
  refine Yields.bind (yields_perform fun s s' i r is' hs hus he => ?_)
  cases i with
  | go =>
    simp only [exec, hs, Txns.only_flush hc] at he
    obtain ⟨rfl, rfl⟩ := Prod.mk.inj (Option.some.inj he)
    exact ⟨db, sts ++ sts', rfl, yields_pure (hus ▸ h)⟩
  | _ => cases he

/-- Statements that a constraint refuses are taken back, and the refusal is handled. -/
theorem yields_catch_refused {sts' : List Stmt} {x : Service α} {f : Raised → Service α}
    {Q : α → Db → List Stmt → List Uuid → Prop}
    (hc : Store.checkAll sts' (Store.applyAll sts db) = some .integrity)
    (h : Yields t (f .integrityError) db [] us Q) :
    Yields t (MonadExcept.tryCatch (do flush sts'; x) f) db sts us Q := by
  intro s is hs hus
  -- What is caught is a program, so the two sequencings are taken apart one after the other.
  change machine.Ensures t (ExceptT.tryCatch (flush sts' >>= fun _ => x) f) s is _
  refine Machine.Ensures.bind (Machine.Ensures.bind (Machine.Ensures.bind ?_))
  refine Machine.ensures_call fun i is' r s' his he => Machine.ensures_done ?_
  rw [his] at hus
  have he := (machine_exec_eq_some.mp he).1
  cases i with
  | go =>
    simp only [exec, hs, Txns.only_flush_refused hc] at he
    obtain ⟨rfl, rfl⟩ := Prod.mk.inj (Option.some.inj he)
    refine Machine.ensures_done (Machine.ensures_done ?_)
    exact h _ is' rfl hus
  | _ => cases he

theorem yields_rollback {Q : Unit → Db → List Stmt → List Uuid → Prop} (h : Q () db [] us) :
    Yields t rollback db sts us Q := by
  refine yields_perform fun s s' i r is' hs hus he => ?_
  cases i with
  | go =>
    obtain ⟨-, rfl⟩ := Prod.mk.inj (Option.some.inj he)
    refine ⟨db, [], ?_, hus ▸ h⟩
    change s.toTxns.rollback t = _
    rw [hs, Txns.only_rollback]
  | _ => cases he

/-- An audit event is recorded on top of what is flushed with it. -/
theorem yields_recordEvent {entity : AuditEntity} {body : AuditBody} {actorType : ActorType}
    {correlationId : String} {dirty : List Stmt} {Q : Unit → Db → List Stmt → List Uuid → Prop}
    (hc : Store.checkAll dirty (Store.applyAll sts db) = none)
    (h : ∀ createdAt, Q () db (sts ++ (dirty ++ [.insertAuditEvent
      { entity, body, actorType, correlationId := some correlationId, createdAt }])) us) :
    Yields t (recordEvent entity body actorType correlationId dirty) db sts us Q := by
  refine Yields.bind (yields_now fun createdAt => yields_flush ?_ (h createdAt))
  rw [Store.checkAll_append, hc]
  rfl

end Rules

end Service

/-! ### Whole operations -/

/-- No transaction is open, and the keys are unique. -/
structure Idle (s : State) : Prop where
  pending : s.pending = []
  distinct : s.db.Distinct

/-- What the service of an operation yields, the operation does when it is performed. -/
theorem Idle.of_yields {t : Tid} {op : Op} {s s' : State} {is : List Input} {outcome : Outcome}
    {Q : Response → Db → Prop} (hs : Idle s)
    (hyields : Service.Yields t op.service s.db [] (uuidsOf is) fun r db' sts' _ =>
      sts' = [] ∧ db'.Distinct ∧ Q r db')
    (h : machine.perform? t op is s = some (outcome, s')) :
    Idle s' ∧ ∃ r, outcome = .ok r ∧ Q r s'.db := by
  have hstart : (machine.start t op s).toTxns = .only t s.db [] := Txns.eq_only hs.pending t
  have hbody : machine.Ensures t (machine.body op) (machine.start t op s) is fun outcome s₁ _ =>
      ∃ r db', outcome = .ok r ∧ s₁.toTxns = .only t db' [] ∧ db'.Distinct ∧ Q r db' := by
    refine (hyields _ is hstart rfl).mono ?_
    rintro outcome s₁ is₁ ⟨r, db', sts', rfl, hs₁, rfl, hr⟩
    exact ⟨r, db', rfl, hs₁, hr⟩
  obtain ⟨s₁, ⟨r, db', rfl, hs₁, hdistinct, hQ⟩, rfl⟩ := hbody.of_perform? h
  have hclose : (machine.close t (some (.ok r)) s₁).toTxns = .only t db' [] := by
    change s₁.toTxns.rollback t = _
    rw [hs₁, Txns.only_rollback]
  have hdb : (machine.close t (some (.ok r)) s₁).db = db' := congrArg Txns.db hclose
  exact ⟨⟨congrArg Txns.pending hclose, hdb ▸ hdistinct⟩, r, rfl, hdb ▸ hQ⟩

/-! ### There is always a way on -/

theorem uuidsOf_cons (i : Input) (is : List Input) :
    uuidsOf (i :: is) = i.uuid?.toList ++ uuidsOf is := by
  cases i with
  | _ => rfl

/-- With no other transaction open, every command can be answered. -/
theorem exists_exec {t : Tid} {s : State} (settings : Settings) (id : Uuid) (c : Cmd)
    (hs : s.toTxns.others t = []) : ∃ i r s', machine.exec t c i s = some (r, s') ∧
      s'.toTxns.others t = [] ∧ (∀ u ∈ i.uuid?, u = id) ∧ i.Under settings := by
  have hno : ∀ u ∈ (none : Option Uuid), u = id := fun u hu => absurd hu (Option.not_mem_none u)
  cases c with
  | select q => exact ⟨.ranking [], _, _, machine_exec_of rfl rfl, hs, hno, trivial⟩
  | flush sts =>
    have hblocked : ¬ s.toTxns.Blocked t sts := by
      rintro ⟨p, hp, -⟩
      rw [hs] at hp
      cases hp
    cases hc : Store.checkAll sts (s.toTxns.view t) with
    | none =>
      have hflush : s.toTxns.flush t sts = some (.ok (), s.toTxns.enlist t sts) := by
        rw [Txns.flush, if_neg hblocked, hc]
      refine ⟨.go, .ok (), s.withTxns (s.toTxns.enlist t sts), machine_exec_of (by simp only [exec, hflush]) rfl,
        ?_, hno, trivial⟩
      change (s.toTxns.pending ++ sts.map fun st => (t, st)).filter _ = []
      rw [List.filter_append]
      exact List.append_eq_nil_iff.mpr ⟨hs, by simp [List.filter_map, Function.comp_def]⟩
    | some e =>
      have hflush : s.toTxns.flush t sts = some (.error e, s.toTxns.rollback t) := by
        rw [Txns.flush, if_neg hblocked, hc]
      refine ⟨.go, .error e, (s.withTxns (s.toTxns.rollback t)).emit t (.refused sts e),
        machine_exec_of (by simp only [exec, hflush]) rfl, ?_, hno, trivial⟩
      change (s.toTxns.others t).filter _ = []
      rw [hs]
      rfl
  | commit =>
    refine ⟨.go, (), _, machine_exec_of rfl rfl, ?_, hno, trivial⟩
    change (s.toTxns.others t).filter _ = []
    rw [hs]
    rfl
  | rollback =>
    refine ⟨.go, (), _, machine_exec_of rfl rfl, ?_, hno, trivial⟩
    change (s.toTxns.others t).filter _ = []
    rw [hs]
    rfl
  | now => exact ⟨.time 0, _, _, machine_exec_of rfl rfl, hs, hno, trivial⟩
  | uuid4 => exact ⟨.uuid id, _, _, machine_exec_of rfl rfl, hs, fun u hu => (Option.some.inj hu).symm, trivial⟩
  | getSettings => exact ⟨.settings settings, _, _, machine_exec_of rfl rfl, hs, hno, rfl⟩
  | getRecommendation context =>
    exact ⟨.recommendation (.error (.other "")), _, _, machine_exec_of rfl rfl, hs, hno, trivial⟩
  | createPaymentLink caseId request =>
    exact ⟨.created none (.error (.other (.other ""))), _, _, machine_exec_of rfl rfl, hs, hno,
      trivial⟩
  | findPaymentLinkByReference referenceId =>
    exact ⟨.found (.ok none), _, _, machine_exec_of rfl rfl, hs, hno, trivial⟩

/-- So a program gets to its end, drawing UUIDs from `n` on, by induction on the program. -/
theorem exists_solo {α : Type} {t : Tid} (settings : Settings) (p : Prog sig α) (n : Uuid)
    {s : State} (hs : s.toTxns.others t = []) : ∃ is r s', machine.solo t p s is = some (r, s', []) ∧
      (uuidsOf is).Nodup ∧ (∀ u ∈ uuidsOf is, n ≤ u) ∧ ∀ i ∈ is, i.Under settings := by
  induction p generalizing n s with
  | done a =>
    exact ⟨[], a, s, rfl, List.nodup_nil, fun u hu => absurd hu List.not_mem_nil,
      fun i hi => absurd hi List.not_mem_nil⟩
  | call c k ih =>
    obtain ⟨i, r, s₁, he, hs₁, hid, hi⟩ := exists_exec settings n c hs
    obtain ⟨is, r', s', hsolo, hnodup, hfrom, his⟩ := ih r (n + 1) hs₁
    refine ⟨i :: is, r', s', ?_, ?_, ?_, List.forall_mem_cons.mpr ⟨hi, his⟩⟩
    · rw [Machine.solo_call (M := machine) he]
      exact hsolo
    · rw [uuidsOf_cons, List.nodup_append]
      refine ⟨by cases i.uuid? <;> simp, hnodup, fun u hu v hv heq => ?_⟩
      have hu := hid u (Option.mem_toList.mp hu)
      have hv := hfrom v hv
      rw [← heq, hu] at hv
      exact Nat.not_succ_le_self n hv
    · intro u hu
      rw [uuidsOf_cons, List.mem_append] at hu
      rcases hu with hu | hu
      · exact (hid u (Option.mem_toList.mp hu)).ge
      · exact (Nat.le_succ n).trans (hfrom u hu)

/-- Whatever is the key of a row is below some bound. -/
theorem exists_unused {ρ : Type} [Keyed ρ Uuid] (table : Table ρ) :
    ∃ n : Uuid, ∀ id, n ≤ id → table.get? id = none := by
  refine ⟨(table.map Keyed.key).sum + 1, fun id hid => Table.get?_eq_none_iff.mpr fun r hr heq => ?_⟩
  have hle : Keyed.key r ≤ (table.map Keyed.key).sum :=
    List.single_le_sum (fun _ _ => Nat.zero_le _) _ (List.mem_map_of_mem hr)
  rw [heq] at hle
  exact Nat.not_succ_le_self _ (hid.trans hle)

/-- **Whenever the database is idle, any operation can be performed**, under any settings, and
with UUIDs that are not in use. -/
theorem Idle.exists_perform? {s : State} (hs : Idle s) (settings : Settings) (t : Tid) (op : Op) :
    ∃ is outcome s', s.db.Fresh (uuidsOf is) ∧ (∀ i ∈ is, i.Under settings) ∧
      machine.perform? t op is s = some (outcome, s') := by
  obtain ⟨n₁, hcustomers⟩ := exists_unused s.db.customers
  obtain ⟨n₂, hpayments⟩ := exists_unused s.db.payments
  obtain ⟨n₃, hcases⟩ := exists_unused s.db.recoveryCases
  have hothers : (machine.start t op s).toTxns.others t = [] := by
    change s.pending.filter _ = []
    rw [hs.pending]
    rfl
  obtain ⟨is, r, s', hsolo, hnodup, hfrom, his⟩ :=
    exists_solo settings (machine.body op) (n₁ + n₂ + n₃) hothers
  refine ⟨is, r, machine.close t (some r) s', ⟨hnodup, ?_, ?_, ?_⟩, his, ?_⟩
  · intro id hid
    have hle : n₁ + n₂ ≤ id := (Nat.le_add_right _ _).trans (hfrom id hid)
    exact hcustomers id ((Nat.le_add_right _ _).trans hle)
  · intro id hid
    have hle : n₁ + n₂ ≤ id := (Nat.le_add_right _ _).trans (hfrom id hid)
    exact hpayments id ((Nat.le_add_left _ _).trans hle)
  · exact fun id hid => hcases id ((Nat.le_add_left _ _).trans (hfrom id hid))
  · rw [Machine.perform?, hsolo]

end RecoverAI
