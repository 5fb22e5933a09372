import RecoverAI.Framework.Fields
import RecoverAI.Services.WebhookEndpoint

/-!
# What a dedup key identifies

`build_dedup_key` writes the delivery id behind the text `event_id`, or else the event, the
link and the payment, with colons between them. A delivery whose key is already claimed is
acknowledged and dropped, so two events with one key cost one of them.
-/

namespace RecoverAI

/-- What `build_dedup_key` reads of a delivery: the payload and the event-id header. -/
structure WebhookDelivery where
  payload : WebhookPayload
  eventId : Option String
  deriving DecidableEq, Repr

namespace WebhookDelivery

def dedupKey (delivery : WebhookDelivery) : String :=
  buildDedupKey delivery.payload delivery.eventId

/-- The delivery carries a non-empty event id. -/
def Carries (delivery : WebhookDelivery) (id : String) : Prop :=
  delivery.eventId = some id ∧ id ≠ ""

/-- Two deliveries are of one event: they carry the same id, or neither carries one and
they name the same event, link and payment, where an absent name is an empty one. -/
def SameEvent (a b : WebhookDelivery) : Prop :=
  (∃ id, a.Carries id ∧ b.Carries id) ∨
  ((∀ id, ¬ a.Carries id) ∧ (∀ id, ¬ b.Carries id) ∧ a.payload.event = b.payload.event ∧
    a.payload.paymentLinkId.getD "" = b.payload.paymentLinkId.getD "" ∧
    a.payload.paymentId.getD "" = b.payload.paymentId.getD "")

/-- The texts a delivery is identified by. -/
def fields (delivery : WebhookDelivery) : List String :=
  match truthy delivery.eventId with
  | some id => ["event_id", id]
  | none => [delivery.payload.event, delivery.payload.paymentLinkId.getD "",
      delivery.payload.paymentId.getD ""]

/-- If the texts of the two deliveries consist of the same pieces between colons, their
colons are in the same texts, as many in each. -/
def ColonsAgree (a b : WebhookDelivery) : Prop :=
  Joined.pieces ':' (a.fields.map String.toList) = Joined.pieces ':' (b.fields.map String.toList) →
    Joined.separators ':' (a.fields.map String.toList) =
      Joined.separators ':' (b.fields.map String.toList)

variable {a b : WebhookDelivery}

theorem truthy_eq_some_iff_carries {id : String} : truthy a.eventId = some id ↔ a.Carries id :=
  truthy_eq_some_iff

/-- The key is the fields, with colons between them. -/
theorem toList_dedupKey (delivery : WebhookDelivery) :
    delivery.dedupKey.toList = [':'].intercalate (delivery.fields.map String.toList) := by
  unfold dedupKey buildDedupKey fields
  cases truthy delivery.eventId with
  | some id => simp [toString]
  | none => simp [toString, getD_truthy]

theorem fields_ne_nil (delivery : WebhookDelivery) : delivery.fields.map String.toList ≠ [] := by
  unfold fields
  cases truthy delivery.eventId with
  | some id => exact List.cons_ne_nil _ _
  | none => exact List.cons_ne_nil _ _

/-- Two deliveries are of one event exactly when they are identified by the same texts. -/
theorem sameEvent_iff : a.SameEvent b ↔ a.fields = b.fields := by
  unfold SameEvent fields
  simp only [← truthy_eq_some_iff_carries]
  cases ha : truthy a.eventId with
  | some id =>
    cases hb : truthy b.eventId with
    | some id' => simp [eq_comm]
    | none => simp
  | none =>
    cases hb : truthy b.eventId with
    | some id' => simp
    | none => simp

/-- **The dedup key identifies the event exactly where colons do not move.** Nothing escapes
a colon in a text of the payload, and nothing keeps an event from being called `event_id`. -/
theorem dedupKey_identifies_iff (a b : WebhookDelivery) :
    (a.dedupKey = b.dedupKey ↔ a.SameEvent b) ↔ a.ColonsAgree b := by
  have hfields : a.SameEvent b ↔ a.fields.map String.toList = b.fields.map String.toList := by
    rw [sameEvent_iff, (List.map_injective_iff.mpr fun _ _ => String.toList_inj.mp).eq_iff]
  rw [← String.toList_inj, toList_dedupKey, toList_dedupKey, hfields]
  exact Joined.intercalate_faithful_iff a.fields_ne_nil b.fields_ne_nil

/-- As long as no text has a colon, the key identifies the event. -/
theorem colonsAgree_of_not_mem (ha : ∀ text ∈ a.fields, ':' ∉ text.toList)
    (hb : ∀ text ∈ b.fields, ':' ∉ text.toList) : a.ColonsAgree b := by
  have hclean : ∀ texts : List String, (∀ text ∈ texts, ':' ∉ text.toList) →
      Joined.pieces ':' (texts.map String.toList) = texts.map String.toList := by
    intro texts h
    refine Joined.pieces_of_not_mem ?_
    rintro _ hfield
    obtain ⟨text, htext, rfl⟩ := List.mem_map.mp hfield
    exact h text htext
  intro hpieces
  rw [hclean _ ha, hclean _ hb] at hpieces
  rw [hpieces]

/-- A link paid, and a delivery without a payment whose link has a colon in its name. -/
def paidLink : WebhookDelivery where
  payload := ⟨"payment_link.paid", some "plink_1", some "paid", some 500, some "pay_1:"⟩
  eventId := none

def otherLink : WebhookDelivery where
  payload := ⟨"payment_link.paid", some "plink_1:pay_1", some "paid", some 700, none⟩
  eventId := none

/-- The two have one key, and are not of one event. -/
theorem dedupKey_collides :
    ¬ (paidLink.dedupKey = otherLink.dedupKey ↔ paidLink.SameEvent otherLink) := by
  have hkeys : paidLink.dedupKey = otherLink.dedupKey := by decide +kernel
  have hfields : paidLink.fields ≠ otherLink.fields := by decide +kernel
  intro h
  exact hfields (sameEvent_iff.mp (h.mp hkeys))

end WebhookDelivery

end RecoverAI
