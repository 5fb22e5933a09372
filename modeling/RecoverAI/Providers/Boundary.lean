import RecoverAI.Providers.Razorpay

/-!
# The provider boundary

`PaymentProvider` promises that nothing but a `PaymentProviderError` crosses it. The
Razorpay provider keeps the promise for every failed transport. For a response it depends
on the body: whatever is read of it without a schema has to be there (`readable` for a
link, `Response.errorReadable` for an error), or a `KeyError`, a `TypeError`, an
`AttributeError` or the `ValueError` of the decoder comes through.
-/

namespace RecoverAI

namespace Razorpay

open Python

/-- The result is a value or a `PaymentProviderError`. -/
def Handled {α : Type} (result : Except ProviderException α) : Prop :=
  ∀ error, result ≠ .error (.other error)

/-- Razorpay has created the link or may have: anything but a rejection of the request. -/
def HttpOutcome.mayHaveCreated : HttpOutcome → Bool
  | .response answer => answer.statusCode ∉ [400, 401, 403, 422, 429]
  | _ => true

/-- The result of a creation is handled and, where the link may exist without its snapshot,
marked as ambiguous. -/
structure CreationKept (outcome : HttpOutcome) (result : Except ProviderException LinkSnapshot) :
    Prop where
  handled : Handled result
  ambiguous : ∀ e, result = .error (.paymentProvider e) → outcome.mayHaveCreated →
    e.kind = .ambiguous

/-! ### What has to be there -/

/-- The value is an object with the members every link has, and a time that can be read. -/
def readable (data : Json) : Bool :=
  data.has "id" && data.has "status" && data.has "amount" && data.has "currency" &&
    (!(data.member "expire_by").truth || (data.member "expire_by").isTime)

/-- A list whose first item is readable. -/
def firstReadable : Json → Bool
  | .array (link :: _) => readable link
  | _ => false

/-- A body that is not JSON, or an object in which `error` is missing or an object. -/
def Response.errorReadable (response : Response) : Bool :=
  match response.body with
  | .json value => value.isObject && (!value.has "error" || (value.member "error").isObject)
  | .notJson => true
  | .tooDeep => false

/-- What a body has to be if the request succeeded, and if it failed. -/
def HttpOutcome.readableBy (success : Json → Bool) : HttpOutcome → Bool
  | .response answer =>
    if answer.statusCode < 300 then
      match answer.body with
      | .json value => success value
      | _ => false
    else answer.errorReadable
  | _ => true

/-- The answer to a search: an object in which `payment_links` is missing or empty, or else a
list whose first item is a link. -/
def searchReadable (data : Json) : Bool :=
  data.isObject &&
    (!(data.member "payment_links").truth || firstReadable (data.member "payment_links"))

/-! ### Links -/

section Links

variable {data : Json} {key : String} {β : Type} {f : Json → Except Raises β} {Q : Prop}

/-- Reading a member that has to be there, before a rest that does not depend on it. -/
theorem returns_item_bind (hf : ∀ a, Returns (f a) ↔ Q) :
    Returns (data.item key >>= f) ↔ data.has key ∧ Q := by
  rw [Returns.bind_iff, ← Json.returns_item]
  constructor
  · rintro ⟨a, ha, h⟩
    exact ⟨⟨a, ha⟩, (hf a).mp h⟩
  · rintro ⟨⟨a, ha⟩, h⟩
    exact ⟨a, ha, (hf a).mpr h⟩

/-- Reading a member with a default, of an object. -/
theorem returns_get_bind {default : Json} (hobject : data.isObject) (hf : ∀ a, Returns (f a) ↔ Q) :
    Returns (data.get key default >>= f) ↔ Q := by
  obtain ⟨a, ha⟩ := Json.returns_get.mpr hobject
  rw [ha]
  exact hf a

theorem returns_fromUnix {value : Json} :
    Returns (fromUnix value) ↔ (!value.truth || value.isTime) := by
  unfold fromUnix
  cases value.truth with
  | false => exact iff_of_true ⟨none, rfl⟩ rfl
  | true =>
    rw [if_neg (by simp), Returns.map_iff, returns_fromTimestamp]
    rfl

/-- **A link is built exactly from a readable value.** -/
theorem returns_paymentLinkFromResponse :
    Returns (paymentLinkFromResponse data) ↔ readable data := by
  by_cases hobject : data.isObject
  · have hchain : Returns (paymentLinkFromResponse data) ↔ data.has "id" ∧ data.has "status" ∧
        data.has "amount" ∧ data.has "currency" ∧
        (!(data.member "expire_by").truth || (data.member "expire_by").isTime) := by
      refine returns_item_bind fun id => returns_get_bind hobject fun shortUrl =>
        returns_item_bind fun status => returns_item_bind fun amount =>
        returns_get_bind hobject fun amountPaid => returns_item_bind fun currency =>
        returns_get_bind hobject fun referenceId => ?_
      rw [Json.get_null hobject]
      exact (Returns.bind_iff_left fun _ _ => .ok).trans returns_fromUnix
    rw [hchain, readable]
    simp only [Bool.and_eq_true, and_assoc]
  · refine iff_of_false (fun h => ?_) (fun h => ?_)
    · obtain ⟨id, hid, -⟩ := Returns.bind_iff.mp h
      exact hobject (Json.isObject_of_has (Json.returns_item.mp ⟨id, hid⟩))
    · simp only [readable, Bool.and_eq_true] at h
      exact hobject (Json.isObject_of_has h.1.1.1.1)

end Links

/-! ### Errors -/

section Errors

variable {str : Json → String}

/-- The description in a body that is JSON: only an `AttributeError` can come up, and that is
not caught. -/
theorem returns_errorDescription {response : Response} {value : Json}
    (hbody : response.body = .json value) : Returns (errorDescription response) ↔
      value.isObject && (!value.has "error" || (value.member "error").isObject) := by
  simp only [errorDescription, Response.json, hbody]
  cases value with
  | object members =>
    change Returns (tryCatch (((Json.lookup members "error").getD (.object [])).get _ _) _) ↔
      (!(Json.lookup members "error").isSome ||
        ((Json.lookup members "error").getD .null).isObject) = true
    cases Json.lookup members "error" with
    | none => exact iff_of_true .ok rfl
    | some error =>
      cases error with
      | object _ => exact iff_of_true .ok rfl
      | _ => exact iff_of_false nofun nofun
  | _ => exact iff_of_false nofun nofun

/-- **An error response is classified exactly if** its body can be read. -/
theorem returns_classifyErrorResponse {response : Response} :
    Returns (classifyErrorResponse str response) ↔ response.errorReadable := by
  have hdescription : Returns (classifyErrorResponse str response) ↔
      Returns (errorDescription response) := Returns.bind_iff_left fun _ _ => .ok
  rw [hdescription, Response.errorReadable]
  cases hbody : response.body with
  | notJson =>
    refine iff_of_true ?_ rfl
    simp only [errorDescription, Response.json, hbody]
    exact .ok
  | tooDeep =>
    refine iff_of_false ?_ nofun
    simp only [errorDescription, Response.json, hbody]
    nofun
  | json value => exact returns_errorDescription hbody

end Errors

/-! ### Requests -/

section Requests

variable {α β : Type} {str : Json → String}

theorem handled_raw {x : Except Raises α} : Handled (raw x) ↔ Returns x := by
  cases x with
  | ok a => exact iff_of_true nofun .ok
  | error e => exact iff_of_false (fun h => h _ rfl) nofun

theorem handled_raw_bind {x : Except Raises α} {f : α → Except ProviderException β} :
    Handled (raw x >>= f) ↔ ∃ a, x = .ok a ∧ Handled (f a) := by
  cases x with
  | ok a => exact ⟨fun h => ⟨a, rfl, h⟩, fun ⟨_, ha, h⟩ => Except.ok.inj ha ▸ h⟩
  | error e => exact iff_of_false (fun h => h _ rfl) nofun

/-- What `_request` does, by the kind of the outcome: it decodes a success, or it raises. -/
inductive Requested (outcome : HttpOutcome) : Except ProviderException Json → Prop
  | decoded (response : Response) (value : Json) (eq : outcome = .response response)
      (success : response.statusCode < 300) (body : response.body = .json value) :
      Requested outcome (.ok value)
  | undecoded (response : Response) (error : Raised) (eq : outcome = .response response)
      (success : response.statusCode < 300) (body : ∀ value, response.body ≠ .json value) :
      Requested outcome (.error (.other error))
  | failed (e : PaymentProviderError) (transport : ∀ response, outcome ≠ .response response)
      (kind : e.kind ∈ [.timeout, .unavailable]) : Requested outcome (.error (.paymentProvider e))
  | classified (response : Response) (e : PaymentProviderError) (eq : outcome = .response response)
      (failure : ¬ response.statusCode < 300) (body : response.errorReadable)
      (kind : e.kind = errorKind response.statusCode) :
      Requested outcome (.error (.paymentProvider e))
  | unclassified (response : Response) (error : Raised) (eq : outcome = .response response)
      (failure : ¬ response.statusCode < 300) (body : ¬ response.errorReadable) :
      Requested outcome (.error (.other error))

theorem requested (str : Json → String) (outcome : HttpOutcome) :
    Requested outcome (request str outcome) := by
  cases outcome with
  | timeout text => exact .failed _ nofun List.mem_cons_self
  | httpError text => exact .failed _ nofun (List.mem_cons_of_mem _ List.mem_cons_self)
  | response response =>
    change Requested _ (if response.statusCode < 300 then raw response.json else
      raw (classifyErrorResponse str response) >>= fun e => throw (.paymentProvider e))
    by_cases hsuccess : response.statusCode < 300
    · rw [if_pos hsuccess, Response.json]
      cases hbody : response.body with
      | json value => exact .decoded response value rfl hsuccess hbody
      | notJson => exact .undecoded response _ rfl hsuccess (by rw [hbody]; nofun)
      | tooDeep => exact .undecoded response _ rfl hsuccess (by rw [hbody]; nofun)
    · rw [if_neg hsuccess]
      by_cases hreadable : response.errorReadable
      · obtain ⟨e, he⟩ : Returns (classifyErrorResponse str response) :=
          returns_classifyErrorResponse.mpr hreadable
        have hkind : e.kind = errorKind response.statusCode := by
          unfold classifyErrorResponse at he
          cases hd : errorDescription response with
          | ok description => rw [hd] at he; cases he; rfl
          | error _ => rw [hd] at he; cases he
        rw [he]
        exact .classified response e rfl hsuccess hreadable hkind
      · cases hc : classifyErrorResponse str response with
        | ok e => exact absurd (returns_classifyErrorResponse.mp ⟨e, hc⟩) hreadable
        | error e => exact .unclassified response _ rfl hsuccess hreadable

theorem handled_error {e : ProviderException} :
    Handled (.error e : Except ProviderException α) ↔ ∃ p, e = .paymentProvider p := by
  cases e with
  | paymentProvider p => exact iff_of_true nofun ⟨p, rfl⟩
  | other error => exact iff_of_false (fun h => h error rfl) nofun

namespace Requested

variable {outcome : HttpOutcome} {value : Json} {e : ProviderException} {p : PaymentProviderError}
  {success : Json → Bool}

/-- A request that returns has decoded a success. -/
theorem readableBy_ok (h : Requested outcome (.ok value)) :
    outcome.readableBy success = success value := by
  cases h with
  | decoded response _ eq hsuccess body => rw [eq, HttpOutcome.readableBy, if_pos hsuccess, body]

/-- One that raises raises an error of the provider exactly if the outcome can be read. -/
theorem readableBy_error (h : Requested outcome (.error e)) :
    outcome.readableBy success ↔ ∃ p, e = .paymentProvider p := by
  cases h with
  | undecoded response error eq hsuccess body =>
    refine iff_of_false ?_ nofun
    rw [eq, HttpOutcome.readableBy, if_pos hsuccess]
    cases hbody : response.body with
    | json value => exact absurd hbody (body value)
    | _ => nofun
  | failed p transport kind =>
    refine iff_of_true ?_ ⟨p, rfl⟩
    cases outcome with
    | response response => exact absurd rfl (transport response)
    | _ => rfl
  | classified response p eq failure body kind =>
    refine iff_of_true ?_ ⟨p, rfl⟩
    rw [eq, HttpOutcome.readableBy, if_neg failure]
    exact body
  | unclassified response error eq failure body =>
    refine iff_of_false ?_ nofun
    rw [eq, HttpOutcome.readableBy, if_neg failure]
    exact body

/-- An error of the provider that leaves nothing open is a rejection. -/
theorem not_mayHaveCreated (h : Requested outcome (.error (.paymentProvider p)))
    (hkind : p.kind ∉ [.timeout, .unavailable]) : outcome.mayHaveCreated = false := by
  cases h with
  | failed _ transport kind => exact absurd kind hkind
  | classified response _ eq failure body kind =>
    rw [eq, HttpOutcome.mayHaveCreated, decide_eq_false_iff_not, not_not]
    rw [kind] at hkind
    by_contra hother
    simp only [List.mem_cons, List.not_mem_nil, or_false, not_or] at hother
    obtain ⟨h400, h401, h403, h422, h429⟩ := hother
    simp [errorKind, h400, h401, h403, h422, h429] at hkind

end Requested

end Requests

/-! ### The two calls -/

section Calls

variable (str : Json → String) (client : HttpRequest → HttpOutcome)

/-- What a creation makes of each outcome. -/
theorem creationKept_iff (creation : CreatePaymentLinkRequest) :
    CreationKept (client (createRequest creation)) (createPaymentLink str client creation) ↔
      (client (createRequest creation)).readableBy readable := by
  have hrequested := requested str (client (createRequest creation))
  unfold createPaymentLink
  generalize client (createRequest creation) = outcome at hrequested ⊢
  generalize request str outcome = result at hrequested
  cases result with
  | ok value =>
    rw [hrequested.readableBy_ok, ← returns_paymentLinkFromResponse, ← handled_raw]
    refine ⟨CreationKept.handled, fun h => ⟨h, fun e he => ?_⟩⟩
    -- what is raised here is no `PaymentProviderError`
    obtain ⟨link, hlink⟩ := handled_raw.mp h
    change raw (paymentLinkFromResponse value) = _ at he
    rw [hlink] at he
    cases he
  | error e =>
    rw [hrequested.readableBy_error]
    cases e with
    | other error => exact iff_of_false (fun h => h.handled error rfl) nofun
    | paymentProvider p =>
      refine iff_of_true ?_ ⟨p, rfl⟩
      change CreationKept _ (if p.kind ∈ [.timeout, .unavailable] then _ else _)
      by_cases hkind : p.kind ∈ [.timeout, .unavailable]
      · rw [if_pos hkind]
        exact ⟨nofun, fun e he _ => by cases he; rfl⟩
      · rw [if_neg hkind]
        refine ⟨nofun, fun e _ hmay => ?_⟩
        rw [hrequested.not_mayHaveCreated hkind] at hmay
        cases hmay

/-- An answer to a search is handled exactly if it can be read. -/
theorem handled_search_iff {data : Json} :
    Handled (do
      let links ← raw (data.get "payment_links" (.array []))
      if !links.truth then
        return none
      let link ← raw links.first
      some <$> raw (paymentLinkFromResponse link)) ↔ searchReadable data := by
  have hlink : ∀ link, Handled (some <$> raw (paymentLinkFromResponse link)) ↔ readable link := by
    intro link
    rw [← returns_paymentLinkFromResponse, ← handled_raw]
    cases raw (paymentLinkFromResponse link) with
    | ok snapshot => exact iff_of_true nofun nofun
    | error e => cases e <;> simp [Handled, Functor.map, Except.map]
  have hfirst : ∀ links : Json, links.truth → ((∃ link, links.first = .ok link ∧
      Handled (some <$> raw (paymentLinkFromResponse link))) ↔ firstReadable links) := by
    intro links htruth
    rcases links with _ | _ | _ | _ | s | (_ | ⟨link, _⟩) | _
    case array.cons => exact ⟨fun ⟨_, h, hl⟩ => by cases h; exact (hlink link).mp hl,
      fun h => ⟨link, rfl, (hlink link).mpr h⟩⟩
    case string =>
      refine iff_of_false (fun ⟨link, h, hl⟩ => ?_) nofun
      -- the first character of a text is a text, and no link
      obtain ⟨text, rfl⟩ := Json.first_string h
      cases (hlink _).mp hl
    all_goals exact iff_of_false nofun nofun
  rw [handled_raw_bind, searchReadable]
  cases data with
  | object members =>
    have hget : ∃ links, (Json.object members).get "payment_links" (.array []) = .ok links ∧
        links.truth = ((Json.object members).member "payment_links").truth ∧
        (links.truth → links = (Json.object members).member "payment_links") := by
      refine ⟨_, rfl, ?_⟩
      change ((Json.lookup members _).getD _).truth = ((Json.lookup members _).getD _).truth ∧
        (((Json.lookup members _).getD _).truth → (Json.lookup members _).getD _ =
          (Json.lookup members _).getD _)
      cases Json.lookup members "payment_links" with
      | some links => exact ⟨rfl, fun _ => rfl⟩
      | none => exact ⟨rfl, nofun⟩
    obtain ⟨links, hlinks, htruth, heq⟩ := hget
    rw [← htruth]
    have hmatch : ∀ a, (Json.object members).get "payment_links" (.array []) = .ok a ↔ a = links :=
      fun a => by rw [hlinks, Except.ok.injEq, eq_comm]
    simp only [hmatch, exists_eq_left]
    cases ht : links.truth with
    | false => exact iff_of_true nofun rfl
    | true =>
      rw [← heq ht]
      exact handled_raw_bind.trans (hfirst links ht)
  | _ => exact iff_of_false nofun nofun

/-- What a search makes of each kind of outcome. -/
theorem searchHandled_iff (referenceId : String) :
    Handled (findPaymentLinkByReference str client referenceId) ↔
      (client (findRequest referenceId)).readableBy searchReadable := by
  have hrequested := requested str (client (findRequest referenceId))
  unfold findPaymentLinkByReference
  generalize client (findRequest referenceId) = outcome at hrequested ⊢
  generalize request str outcome = result at hrequested
  cases result with
  | ok value =>
    rw [hrequested.readableBy_ok]
    exact handled_search_iff
  | error e =>
    rw [hrequested.readableBy_error]
    exact handled_error

end Calls

/-- **What crosses the boundary.** Whatever the client's requests come to, a creation keeps
the promise of the interface exactly if what it came to can be read, and so does a search. -/
theorem boundary_iff (str : Json → String) (client : HttpRequest → HttpOutcome)
    (creation : CreatePaymentLinkRequest) (referenceId : String) :
    (CreationKept (client (createRequest creation)) (createPaymentLink str client creation) ↔
        (client (createRequest creation)).readableBy readable) ∧
      (Handled (findPaymentLinkByReference str client referenceId) ↔
        (client (findRequest referenceId)).readableBy searchReadable) :=
  ⟨creationKept_iff str client creation, searchHandled_iff str client referenceId⟩

namespace Sample

/-- A page of a gateway in front of the API, with a status of success. -/
def page : HttpOutcome := .response { statusCode := 200, body := .notJson, text := "<html>" }

/-- An error without a description. -/
def nullError : HttpOutcome :=
  .response { statusCode := 502, body := .json (.object [("error", .null)]), text := "" }

def creation : CreatePaymentLinkRequest where
  referenceId := "r"
  amount := 500
  currency := "INR"
  description := "-"
  expireBy := none

end Sample

/-- A body that is not JSON comes through as the error of the decoder, and `null` in the place
of an error as an `AttributeError`; neither creation is marked as ambiguous. -/
theorem page_leaks :
    createPaymentLink (fun _ => "") (fun _ => Sample.page) Sample.creation =
        .error (.other (.other "ValueError")) ∧
      findPaymentLinkByReference (fun _ => "") (fun _ => Sample.page) "r" =
        .error (.other (.other "ValueError")) ∧
      createPaymentLink (fun _ => "") (fun _ => Sample.nullError) Sample.creation =
        .error (.other (.other "AttributeError")) ∧
      ¬ ∀ (str : Json → String) (client : HttpRequest → HttpOutcome)
        (creation : CreatePaymentLinkRequest) (referenceId : String),
        CreationKept (client (createRequest creation)) (createPaymentLink str client creation) ∧
          Handled (findPaymentLinkByReference str client referenceId) :=
  ⟨rfl, rfl, rfl, fun h =>
    (h (fun _ => "") (fun _ => Sample.page) Sample.creation "r").1.handled _ rfl⟩

end Razorpay

end RecoverAI
