import RecoverAI.Models.Ordering
import RecoverAI.Services.AuditExport

/-!
# Listing page by page

The lists of the API: audit events, payments and cases, each by its `list_paginated` in
`app/repositories`, newest first. The order is by the creation time alone, and nothing
settles it among rows of one time, so the pages lose and repeat rows as soon as a boundary
between two pages has rows of one time on both sides (`paging_exact_iff`).
-/

namespace RecoverAI

open Interleave

/-- A row of `audit_events`. -/
structure AuditEventRow extends StoredEvent where
  id : Uuid

instance : Keyed AuditEventRow Uuid := ⟨AuditEventRow.id⟩

/-! ### Queries -/

section Select

variable {ρ : Type} [Keyed ρ Uuid]

/-- `if value is not None: stmt = stmt.where(column == value)` -/
def whereEq {β : Type} [DecidableEq β] (column : ρ → β) : Option β → Table ρ → Table ρ
  | none, rows => rows
  | some value, rows => rows.filter fun r => column r = value

/-- The rows that match, newest first, from an offset on and up to a limit, and how many match.
The environment ranks rows of one time. -/
def selectPage (createdAt : ρ → Time) (matching : Table ρ) (ranking : List Uuid)
    (offset limit : ℕ) : List ρ × ℕ :=
  (((orderedBy (fun r => -createdAt r) ranking matching).drop offset).take limit,
    matching.length)

omit [Keyed ρ Uuid] in
theorem whereEq_sublist {β : Type} [DecidableEq β] (column : ρ → β) (value : Option β)
    (rows : Table ρ) : (whereEq column value rows).Sublist rows := by
  cases value with
  | none => exact List.Sublist.refl _
  | some value => exact List.filter_sublist

end Select

/-- The filters of `GET /audit-events`, of its export and of both selects of
`list_paginated`. -/
structure AuditEventFilters where
  entityType : Option String
  entityId : Option Uuid
  eventType : Option String
  correlationId : Option String

/-- The events that match. -/
def AuditEventFilters.matching (filters : AuditEventFilters) (events : Table AuditEventRow) :
    Table AuditEventRow :=
  let events := whereEq (fun e => e.entityType) filters.entityType events
  let events := whereEq (fun e => e.entityId) filters.entityId events
  let events := whereEq (fun e => e.eventType) filters.eventType events
  whereEq (fun e => e.correlationId) (filters.correlationId.map some) events

namespace AuditEventRepository

/-- `AuditEventRepository.list_paginated` -/
def listPaginated (events : Table AuditEventRow) (filters : AuditEventFilters)
    (ranking : List Uuid) (offset limit : ℕ) : List AuditEventRow × ℕ :=
  selectPage (fun e => e.createdAt) (filters.matching events) ranking offset limit

/-- `AuditEventRepository.list_for_export`: oldest first. -/
def listForExport (events : Table AuditEventRow) (filters : AuditEventFilters)
    (ranking : List Uuid) : List AuditEventRow :=
  orderedBy (fun e => e.createdAt) ranking (filters.matching events)

end AuditEventRepository

/-- `PaymentRepository.list_paginated` -/
def PaymentRepository.listPaginated (payments : Table Payment) (status : Option PaymentStatus)
    (ranking : List Uuid) (offset limit : ℕ) : List Payment × ℕ :=
  selectPage Payment.createdAt (whereEq Payment.status status payments) ranking offset limit

/-- `RecoveryCaseRepository.list_paginated` -/
def RecoveryCaseRepository.listPaginated (cases : Table RecoveryCase)
    (status : Option RecoveryCaseStatus) (ranking : List Uuid) (offset limit : ℕ) :
    List RecoveryCase × ℕ :=
  selectPage RecoveryCase.createdAt (whereEq RecoveryCase.status status cases) ranking offset limit

/-! ### Requests -/

/-- The query parameters `page` and `page_size`. -/
structure PaginationParams where
  page : ℕ
  pageSize : ℕ
  page_ge : 1 ≤ page
  pageSize_ge : 1 ≤ pageSize
  pageSize_le : pageSize ≤ 100

def PaginationParams.offset (params : PaginationParams) : ℕ := (params.page - 1) * params.pageSize

structure PaginatedResponse (ρ : Type) where
  items : List ρ
  page : ℕ
  pageSize : ℕ
  total : ℕ

/-- The answer of a list request, by the `list_paginated` of its rows. -/
def paginated {ρ : Type} (listPaginated : List Uuid → ℕ → ℕ → List ρ × ℕ) (ranking : List Uuid)
    (params : PaginationParams) : PaginatedResponse ρ :=
  let (rows, total) := listPaginated ranking params.offset params.pageSize
  { items := rows, page := params.page, pageSize := params.pageSize, total }

/-- `GET /audit-events` -/
def listAuditEvents (events : Table AuditEventRow) (filters : AuditEventFilters) :
    List Uuid → PaginationParams → PaginatedResponse AuditEventRow :=
  paginated (AuditEventRepository.listPaginated events filters)

/-- `GET /payments` -/
def listPayments (payments : Table Payment) (status : Option PaymentStatus) :
    List Uuid → PaginationParams → PaginatedResponse Payment :=
  paginated (PaymentRepository.listPaginated payments status)

/-- `GET /recovery-cases` -/
def listRecoveryCases (cases : Table RecoveryCase) (status : Option RecoveryCaseStatus) :
    List Uuid → PaginationParams → PaginatedResponse RecoveryCase :=
  paginated (RecoveryCaseRepository.listPaginated cases status)

/-- What `page_size` admits. -/
structure PageSize where
  size : ℕ
  ge : 1 ≤ size
  le : size ≤ 100

/-- The parameters of the `n`-th page behind the first. -/
def PageSize.nth (pageSize : PageSize) (n : ℕ) : PaginationParams where
  page := n + 1
  pageSize := pageSize.size
  page_ge := Nat.le_add_left 1 n
  pageSize_ge := pageSize.ge
  pageSize_le := pageSize.le

/-- The pages from the first to the last that the total calls for, each by a request of its
own. -/
def allPages {ρ : Type} (list : List Uuid → PaginationParams → PaginatedResponse ρ)
    (pageSize : PageSize) (rankings : ℕ → List Uuid) : List ρ :=
  (List.range (pageCount (list (rankings 0) (pageSize.nth 0)).total pageSize.size)).flatMap fun n =>
    (list (rankings n) (pageSize.nth n)).items

/-! ### What the pages add up to -/

/-- Between two pages, rows of one time are on both sides. -/
def TieAcross {ρ : Type} (createdAt : ρ → Time) (rows : Table ρ) (pageSize : PageSize) : Prop :=
  ∃ n t, rows.countP (fun r => t < createdAt r) < n * pageSize.size ∧
    n * pageSize.size < rows.countP fun r => t ≤ createdAt r

section Listing

variable {ρ : Type} [Keyed ρ Uuid] {createdAt : ρ → Time} {matching : Table ρ} {pageSize : PageSize}

omit [Keyed ρ Uuid] in
theorem tieAcross_iff : TieAcross createdAt matching pageSize ↔
    ∃ n, CutsTie (fun r => -createdAt r) matching (n * pageSize.size) := by
  refine exists_congr fun n => ⟨fun ⟨t, hlt, hle⟩ => ⟨-t, ?_, ?_⟩, fun ⟨t, hlt, hle⟩ => ⟨-t, ?_, ?_⟩⟩
  · simpa only [neg_lt_neg_iff] using hlt
  · simpa only [neg_le_neg_iff] using hle
  · simpa only [neg_lt] using hlt
  · simpa only [neg_le] using hle

omit [Keyed ρ Uuid] in
theorem countP_le_eq (rows : Table ρ) (t : Time) : rows.countP (fun r => t ≤ createdAt r) =
    rows.countP (fun r => t < createdAt r) + (rows.map createdAt).count t := by
  induction rows with
  | nil => rfl
  | cons r rows ih =>
    rw [List.countP_cons, List.countP_cons, List.map_cons, List.count_cons, ih]
    rcases lt_trichotomy t (createdAt r) with hlt | heq | hgt
    · simp only [hlt.le, hlt, hlt.ne', decide_true, beq_iff_eq, if_true, if_false]
      omega
    · simp only [heq, le_refl, lt_irrefl, decide_true, decide_false, beq_self_eq_true, if_true,
        Bool.false_eq_true, if_false]
      omega
    · simp only [not_le.mpr hgt, hgt.not_gt, hgt.ne, decide_false, beq_iff_eq, Bool.false_eq_true,
        if_false]
      omega

omit [Keyed ρ Uuid] in
/-- Rows of different times have no tie. -/
theorem not_tieAcross_of_nodup (htimes : (matching.map createdAt).Nodup) :
    ¬ TieAcross createdAt matching pageSize := by
  rintro ⟨n, t, hlt, hle⟩
  have hcount := List.nodup_iff_count_le_one.mp htimes t
  rw [countP_le_eq] at hle
  omega

/-- They are pages of the orders that the rankings lead to. -/
theorem allPages_selectPage (rankings : ℕ → List Uuid) :
    allPages (paginated (selectPage createdAt matching)) pageSize rankings =
      pages (fun n => orderedBy (fun r => -createdAt r) (rankings n) matching) pageSize.size
        (pageCount matching.length pageSize.size) := rfl

/-- Whatever the rankings, the pages add up to the rows that match, if and only if no tie is
across a boundary. -/
theorem allPages_perm_iff (hkeys : (matching.map Keyed.key).Nodup) :
    (∀ rankings, (allPages (paginated (selectPage createdAt matching)) pageSize rankings).Perm
      matching) ↔ ¬ TieAcross createdAt matching pageSize := by
  rw [tieAcross_iff, not_exists, ← pages_perm_iff (List.Nodup.of_map _ hkeys) pageSize.ge]
  constructor
  · intro hexact ls hls
    have hpages := hexact fun n => (ls n).map Keyed.key
    rw [allPages_selectPage] at hpages
    simpa only [orderedBy_map_key hkeys (hls _)] using hpages
  · intro hexact rankings
    exact hexact _ fun n => arranges_orderedBy _ _ _

end Listing

theorem AuditEventFilters.matching_sublist (filters : AuditEventFilters)
    (events : Table AuditEventRow) : (filters.matching events).Sublist events :=
  (((whereEq_sublist _ _ _).trans (whereEq_sublist _ _ _)).trans (whereEq_sublist _ _ _)).trans
    (whereEq_sublist _ _ _)

/-- **When paging loses and repeats nothing.** For audit events, payments and cases alike,
whatever the filters and the page size, the pages list what matches once, however rows of one
time are ranked in each request, if and only if no boundary between pages has rows of one time
on both sides. For audit events this is then what the export lists. -/
theorem paging_exact_iff {events : Table AuditEventRow} {payments : Table Payment}
    {cases : Table RecoveryCase} (hevents : (events.map AuditEventRow.id).Nodup)
    (hpayments : (payments.map Payment.id).Nodup) (hcases : (cases.map RecoveryCase.id).Nodup)
    (filters : AuditEventFilters) (paymentStatus : Option PaymentStatus)
    (caseStatus : Option RecoveryCaseStatus) (pageSize : PageSize) :
    ((∀ rankings, (allPages (listAuditEvents events filters) pageSize rankings).Perm
          (filters.matching events) ∧
        ∀ ranking, (allPages (listAuditEvents events filters) pageSize rankings).Perm
          (AuditEventRepository.listForExport events filters ranking)) ↔
      ¬ TieAcross (fun e => e.createdAt) (filters.matching events) pageSize) ∧
    ((∀ rankings, (allPages (listPayments payments paymentStatus) pageSize rankings).Perm
        (whereEq Payment.status paymentStatus payments)) ↔
      ¬ TieAcross Payment.createdAt (whereEq Payment.status paymentStatus payments) pageSize) ∧
    ((∀ rankings, (allPages (listRecoveryCases cases caseStatus) pageSize rankings).Perm
        (whereEq RecoveryCase.status caseStatus cases)) ↔
      ¬ TieAcross RecoveryCase.createdAt (whereEq RecoveryCase.status caseStatus cases)
        pageSize) := by
  have hmatching : ((filters.matching events).map Keyed.key).Nodup :=
    hevents.sublist ((filters.matching_sublist events).map _)
  refine ⟨?_, ?_, ?_⟩
  · rw [← allPages_perm_iff hmatching]
    refine forall_congr' fun rankings => and_iff_left_of_imp fun hpages ranking => ?_
    exact hpages.trans (orderedBy_perm _ _ _).symm
  · exact allPages_perm_iff (hpayments.sublist ((whereEq_sublist _ _ _).map _))
  · exact allPages_perm_iff (hcases.sublist ((whereEq_sublist _ _ _).map _))

namespace Sample

/-- An audit event of a case, under an id and at a time. -/
def eventAt (id : Uuid) (createdAt : Time) : AuditEventRow where
  id := id
  entityType := "recovery_case"
  entityId := 3
  eventType := "status_changed"
  actorType := "system"
  payload := []
  correlationId := some "c"
  createdAt := createdAt

def allEvents : AuditEventFilters := ⟨none, none, none, none⟩

theorem onePerPage_ge : 1 ≤ 1 := Nat.le_refl 1

theorem onePerPage_le : 1 ≤ 100 := by decide

def onePerPage : PageSize := ⟨1, onePerPage_ge, onePerPage_le⟩

/-- Two requests, between which two events change places. -/
def changing : ℕ → List Uuid
  | 0 => [1, 2]
  | _ => [2, 1]

end Sample

/-- Events of different times, one on a page. -/
theorem paging_exact_iff_times :
    (allPages (listAuditEvents [Sample.eventAt 1 0, Sample.eventAt 2 5] Sample.allEvents)
      Sample.onePerPage Sample.changing).Perm [Sample.eventAt 1 0, Sample.eventAt 2 5] :=
  ((@paging_exact_iff [Sample.eventAt 1 0, Sample.eventAt 2 5] [] [] (by decide) (by decide)
    (by decide) Sample.allEvents none none Sample.onePerPage).1.mpr
      (not_tieAcross_of_nodup (by decide)) Sample.changing).1

/-- **Two events of one time**, one on a page: the first one is on both pages, and the second one
on none. -/
theorem allPages_repeats :
    (allPages (listAuditEvents [Sample.eventAt 1 0, Sample.eventAt 2 0] Sample.allEvents)
      Sample.onePerPage Sample.changing).map AuditEventRow.id = [1, 1] ∧
    ¬ (allPages (listAuditEvents [Sample.eventAt 1 0, Sample.eventAt 2 0] Sample.allEvents)
      Sample.onePerPage Sample.changing).Perm [Sample.eventAt 1 0, Sample.eventAt 2 0] := by
  have hids : (allPages (listAuditEvents [Sample.eventAt 1 0, Sample.eventAt 2 0] Sample.allEvents)
      Sample.onePerPage Sample.changing).map AuditEventRow.id = [1, 1] := by decide
  refine ⟨hids, fun hperm => ?_⟩
  have hmap := hperm.map AuditEventRow.id
  rw [hids] at hmap
  exact absurd hmap (by decide)

end RecoverAI
