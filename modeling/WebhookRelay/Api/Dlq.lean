import WebhookRelay.Api.Isolation
import WebhookRelay.Foundation.Paging

/-!
# What the dead-letter list shows

`list_dlq` finds the greatest number of a failed attempt of an event and joins
the attempts of the event with that number back, whether they failed or not.
Attempt numbers restart at 0 for every route and every replay, so several
attempts can carry that number, and a later success does not change it.
-/

namespace WebhookRelay.Api

open Foundation

/-! ## The rows of the query -/

/-- An attempt of the event with the greatest number that a failed attempt of
the event has. -/
structure IsLast (db : Database) (id : UUID) (a : DeliveryAttempt) : Prop where
  mem : a ∈ db.attempts
  event : a.eventId = id
  number : ∃ f ∈ db.attempts, f.eventId = id ∧ failedAttempt f = true ∧
    f.attemptNumber = a.attemptNumber
  greatest : ∀ f ∈ db.attempts, f.eventId = id → failedAttempt f = true →
    f.attemptNumber ≤ a.attemptNumber

def workspaceEvents (db : Database) (ws : UUID) : List Event :=
  db.events.filter (fun e => e.endpointId ∈ workspaceEndpointIds db ws)

/-- The events the list may show: discarded ones only if asked for. -/
def shownEvents (db : Database) (ws : UUID) (includeDiscarded : Bool) : List Event :=
  (workspaceEvents db ws).filter (fun e => includeDiscarded = true ∨ e.isDiscarded = false)

section Rows

variable {env : Env} {db : Database} {ws : UUID} {includeDiscarded : Bool} {a : DeliveryAttempt}
  {e : Event} {row : Event × DeliveryAttempt}

theorem maxAttempt_eq_some_iff {id : UUID} {number : ℤ} :
    maxAttempt db.attempts id = some number ↔
      (∃ f ∈ db.attempts, f.eventId = id ∧ failedAttempt f = true ∧ f.attemptNumber = number) ∧
        ∀ f ∈ db.attempts, f.eventId = id → failedAttempt f = true → f.attemptNumber ≤ number := by
  unfold maxAttempt
  rw [List.max?_eq_some_iff]
  simp only [List.mem_map, List.mem_filter, decide_eq_true_eq]
  constructor
  · rintro ⟨⟨f, ⟨hf, hevent, hfailed⟩, hnumber⟩, hmax⟩
    refine ⟨⟨f, hf, hevent, hfailed, hnumber⟩, ?_⟩
    intro g hg hgevent hgfailed
    exact hmax _ ⟨g, ⟨hg, hgevent, hgfailed⟩, rfl⟩
  · rintro ⟨⟨f, hf, hevent, hfailed, hnumber⟩, hmax⟩
    refine ⟨⟨f, ⟨hf, hevent, hfailed⟩, hnumber⟩, ?_⟩
    rintro _ ⟨g, ⟨hg, hgevent, hgfailed⟩, rfl⟩
    exact hmax g hg hgevent hgfailed

theorem mem_lastAttempts_iff {id : UUID} : a ∈ lastAttempts db.attempts id ↔ IsLast db id a := by
  unfold lastAttempts
  rw [List.mem_filter, decide_eq_true_eq, maxAttempt_eq_some_iff]
  constructor
  · rintro ⟨hmem, hevent, hnumber, hgreatest⟩
    exact ⟨hmem, hevent, hnumber, hgreatest⟩
  · rintro ⟨hmem, hevent, hnumber, hgreatest⟩
    exact ⟨hmem, hevent, hnumber, hgreatest⟩

theorem dlqRows_eq : dlqRows db (workspaceEndpointIds db ws) includeDiscarded =
    (shownEvents db ws includeDiscarded).flatMap
      (fun e => (lastAttempts db.attempts e.id).map (fun a => (e, a))) := by
  simp only [dlqRows, shownEvents, workspaceEvents, List.filter_filter, Bool.decide_and,
    Bool.and_comm]

theorem mem_dlqRows_iff : row ∈ dlqRows db (workspaceEndpointIds db ws) includeDiscarded ↔
    row.1 ∈ shownEvents db ws includeDiscarded ∧ IsLast db row.1.id row.2 := by
  rw [dlqRows_eq, List.mem_flatMap]
  constructor
  · rintro ⟨e, he, hrow⟩
    obtain ⟨a, ha, rfl⟩ := List.mem_map.mp hrow
    exact ⟨he, mem_lastAttempts_iff.mp ha⟩
  · rintro ⟨he, ha⟩
    exact ⟨row.1, he, List.mem_map.mpr ⟨row.2, mem_lastAttempts_iff.mpr ha, rfl⟩⟩

theorem shownEvents_nodup (hevents : (db.events.map Event.id).Nodup) :
    ((shownEvents db ws includeDiscarded).map Event.id).Nodup :=
  hevents.sublist ((List.filter_sublist.trans List.filter_sublist).map _)

/-- The rows differ in their attempts. -/
theorem dlqRows_nodup (hevents : (db.events.map Event.id).Nodup)
    (hattempts : (db.attempts.map DeliveryAttempt.id).Nodup) :
    ((dlqRows db (workspaceEndpointIds db ws) includeDiscarded).map
      (fun row => row.2.id)).Nodup := by
  apply List.Nodup.map_on
  · intro row hrow row' hrow' hid
    exact dlqRows_inj hevents hattempts hrow hrow' hid
  rw [dlqRows_eq, List.nodup_flatMap]
  constructor
  · intro e _
    have hlast : (lastAttempts db.attempts e.id).Nodup :=
      (List.Nodup.of_map _ hattempts).filter _
    exact hlast.map (Prod.mk_right_injective e)
  · have hshown : (shownEvents db ws includeDiscarded).Nodup :=
      List.Nodup.of_map _ (shownEvents_nodup hevents)
    refine hshown.imp ?_
    intro e e' hne row hrow hrow'
    obtain ⟨a, -, rfl⟩ := List.mem_map.mp hrow
    obtain ⟨a', -, heq⟩ := List.mem_map.mp hrow'
    exact hne (congrArg Prod.fst heq).symm

end Rows

/-! ## The answer -/

section Answer

variable {env : Env} {db : Database} {ws : UUID} {includeDiscarded : Bool} {limit offset : ℤ}

/-- The rows in the order of the query. -/
def orderedDlq (env : Env) (db : Database) (ws : UUID) (includeDiscarded : Bool) :
    List (Event × DeliveryAttempt) :=
  orderBy (rankBy (fun row : Event × DeliveryAttempt => -row.1.receivedAt) env.tie
    (fun row => row.2.id)) (dlqRows db (workspaceEndpointIds db ws) includeDiscarded)

/-- The numbers Postgres and the checks of the query take. -/
structure ValidPage (limit offset : ℤ) : Prop where
  limit_nonneg : 0 ≤ limit
  limit_le : limit ≤ 200
  offset_nonneg : 0 ≤ offset
  offset_lt : offset < 2 ^ 63

theorem listDlq_of_valid (h : ValidPage limit offset) :
    listDlq env db ws includeDiscarded limit offset = .ok (.answer 200 (.dlq
      ((page limit.toNat offset.toNat (orderedDlq env db ws includeDiscarded)).map
        (dlqEventOut db.attempts)))) := by
  have hquery : validQuery limit offset = .ok () := by
    apply if_neg
    have := h.limit_le
    have := h.offset_nonneg
    omega
  have hrun : runPage limit offset (orderedDlq env db ws includeDiscarded) =
      .ok (page limit.toNat offset.toNat (orderedDlq env db ws includeDiscarded)) := by
    apply if_neg
    have := h.limit_nonneg
    have := h.offset_lt
    omega
  unfold listDlq
  rw [hquery]
  by_cases hids : workspaceEndpointIds db ws = []
  · have hnone : orderedDlq env db ws includeDiscarded = [] := by
      have hrows : dlqRows db (workspaceEndpointIds db ws) includeDiscarded = [] := by
        simp [dlqRows, hids]
      simp [orderedDlq, hrows, orderBy]
    rw [hnone]
    simp [hids, page, pure, Except.pure, bind, Except.bind]
  · simp only [bind, Except.bind, hids, if_false]
    rw [← orderedDlq, hrun]
    rfl

/-- Other numbers get an empty list or a failure. -/
theorem listDlq_eq_ok {outs : List DlqEventOut}
    (h : listDlq env db ws includeDiscarded limit offset = .ok (.answer 200 (.dlq outs))) :
    outs = [] ∨ ValidPage limit offset ∧
      outs = (page limit.toNat offset.toNat (orderedDlq env db ws includeDiscarded)).map
        (dlqEventOut db.attempts) := by
  by_cases hvalid : ValidPage limit offset
  · rw [listDlq_of_valid hvalid] at h
    cases h
    exact Or.inr ⟨hvalid, rfl⟩
  left
  unfold listDlq at h
  by_cases hquery : 200 < limit ∨ offset < 0
  · rw [validQuery, if_pos hquery] at h
    cases h
  rw [validQuery, if_neg hquery] at h
  by_cases hids : workspaceEndpointIds db ws = []
  · simp only [bind, Except.bind, hids, if_true] at h
    cases h
    rfl
  · have hrange : limit < 0 ∨ 2 ^ 63 ≤ offset := by
      by_contra hin
      push Not at hquery hin
      exact hvalid ⟨hin.1, hquery.1, hquery.2, hin.2⟩
    simp only [bind, Except.bind, hids, if_false, runPage, if_pos hrange] at h
    cases h

end Answer

/-! ## One row for each event -/

section Once

/-- Whatever order the database gives to events received at the same time, a
list long enough for every event shows each of them at most once. -/
def ListsOnce (env : Env) (db : Database) (ws : UUID) (includeDiscarded : Bool) : Prop :=
  ∀ (tie : UUID → ℕ) (limit : ℤ) (outs : List DlqEventOut),
    ((workspaceEvents db ws).length : ℤ) ≤ limit →
    listDlq { env with tie } db ws includeDiscarded limit 0 = .ok (.answer 200 (.dlq outs)) →
      (outs.map DlqEventOut.eventId).Nodup

/-- The list shows as many events as the greatest limit it takes, and all but
the oldest of them have one row. -/
def FullPage (db : Database) (ws : UUID) (includeDiscarded : Bool) : Prop :=
  (shownEvents db ws includeDiscarded).length = 200 ∧
    ∃ oldest ∈ shownEvents db ws includeDiscarded,
      ∀ e ∈ shownEvents db ws includeDiscarded, e.id ≠ oldest.id →
        (∃! a, IsLast db e.id a) ∧ oldest.receivedAt < e.receivedAt

variable {env : Env} {db : Database} {ws : UUID} {includeDiscarded : Bool}

/-- The first rows of the list for one order of the database. -/
def firstDlq (db : Database) (ws : UUID) (includeDiscarded : Bool) (tie : UUID → ℕ) (n : ℕ) :
    List (Event × DeliveryAttempt) :=
  firstRows (fun e : Event => -e.receivedAt) Prod.fst tie
    (fun row : Event × DeliveryAttempt => row.2.id) n
    (dlqRows db (workspaceEndpointIds db ws) includeDiscarded)

theorem mem_shown_of_mem_firstDlq {tie : UUID → ℕ} {n : ℕ} {row : Event × DeliveryAttempt}
    (h : row ∈ firstDlq db ws includeDiscarded tie n) :
    row.1 ∈ shownEvents db ws includeDiscarded :=
  (mem_dlqRows_iff.mp (mem_of_mem_firstRows h)).1

theorem eventIds_nodup_iff (hevents : (db.events.map Event.id).Nodup) {tie : UUID → ℕ} {n : ℕ} :
    (((firstDlq db ws includeDiscarded tie n).map (dlqEventOut db.attempts)).map
        DlqEventOut.eventId).Nodup ↔
      ((firstDlq db ws includeDiscarded tie n).map Prod.fst).Nodup := by
  have hids : ((firstDlq db ws includeDiscarded tie n).map (dlqEventOut db.attempts)).map
        DlqEventOut.eventId =
      ((firstDlq db ws includeDiscarded tie n).map Prod.fst).map Event.id := by
    rw [List.map_map, List.map_map]
    rfl
  rw [hids]
  constructor
  · intro h
    exact List.Nodup.of_map _ h
  · intro h
    apply h.map_on
    intro e he e' he' hid
    obtain ⟨row, hrow, rfl⟩ := List.mem_map.mp he
    obtain ⟨row', hrow', rfl⟩ := List.mem_map.mp he'
    exact Rows.eq_of_key_eq (shownEvents_nodup hevents) (mem_shown_of_mem_firstDlq hrow)
      (mem_shown_of_mem_firstDlq hrow') hid

/-- The longest list decides. -/
theorem listsOnce_iff_firstDlq (hevents : (db.events.map Event.id).Nodup)
    (hfew : (workspaceEvents db ws).length ≤ 200) :
    ListsOnce env db ws includeDiscarded ↔
      ∀ tie, ((firstDlq db ws includeDiscarded tie 200).map Prod.fst).Nodup := by
  constructor
  · intro honce tie
    have hvalid : ValidPage 200 0 := by constructor <;> norm_num
    exact (eventIds_nodup_iff hevents).mp
      (honce tie 200 _ (by exact_mod_cast hfew) (listDlq_of_valid hvalid))
  · intro h tie limit outs _ hlist
    rcases listDlq_eq_ok hlist with rfl | ⟨hvalid, rfl⟩
    · exact List.nodup_nil
    · have hlimit : limit.toNat ≤ 200 := by
        have := hvalid.limit_le
        omega
      have hsub : (firstDlq db ws includeDiscarded tie limit.toNat).Sublist
          (firstDlq db ws includeDiscarded tie 200) := firstRows_sublist hlimit
      exact (eventIds_nodup_iff hevents).mpr ((h tie).sublist (hsub.map _))

theorem listsOnce_of_many (hmany : 200 < (workspaceEvents db ws).length) :
    ListsOnce env db ws includeDiscarded := by
  intro tie limit outs hlimit hlist
  rcases listDlq_eq_ok hlist with rfl | ⟨hvalid, -⟩
  · exact List.nodup_nil
  · have := hvalid.limit_le
    omega

theorem dlqRows_fst_nodup_iff (hevents : (db.events.map Event.id).Nodup)
    (hattempts : (db.attempts.map DeliveryAttempt.id).Nodup) :
    ((dlqRows db (workspaceEndpointIds db ws) includeDiscarded).map Prod.fst).Nodup ↔
      ∀ e ∈ shownEvents db ws includeDiscarded, ∀ a b, IsLast db e.id a → IsLast db e.id b →
        a = b := by
  rw [List.nodup_map_iff_inj_on (List.Nodup.of_map _ (dlqRows_nodup hevents hattempts))]
  constructor
  · intro h e he a b ha hb
    have hrow := h (e, a) (mem_dlqRows_iff.mpr ⟨he, ha⟩) (e, b) (mem_dlqRows_iff.mpr ⟨he, hb⟩) rfl
    exact congrArg Prod.snd hrow
  · intro h row hrow row' hrow' hsame
    obtain ⟨he, ha⟩ := mem_dlqRows_iff.mp hrow
    obtain ⟨-, hb⟩ := mem_dlqRows_iff.mp hrow'
    exact Prod.ext hsame (h row.1 he row.2 row'.2 ha (hsame ▸ hb))

theorem existsUnique_row_iff {e : Event} (he : e ∈ shownEvents db ws includeDiscarded) :
    (∃! row, row ∈ dlqRows db (workspaceEndpointIds db ws) includeDiscarded ∧ row.1 = e) ↔
      ∃! a, IsLast db e.id a := by
  constructor
  · rintro ⟨row, ⟨hrow, rfl⟩, hunique⟩
    refine ⟨row.2, (mem_dlqRows_iff.mp hrow).2, ?_⟩
    intro b hb
    exact congrArg Prod.snd (hunique (row.1, b) ⟨mem_dlqRows_iff.mpr ⟨he, hb⟩, rfl⟩)
  · rintro ⟨a, ha, hunique⟩
    refine ⟨(e, a), ⟨mem_dlqRows_iff.mpr ⟨he, ha⟩, rfl⟩, ?_⟩
    rintro row ⟨hrow, rfl⟩
    exact Prod.ext rfl (hunique row.2 (mem_dlqRows_iff.mp hrow).2)

theorem fullPage_iff (hevents : (db.events.map Event.id).Nodup) :
    FullPage db ws includeDiscarded ↔ (shownEvents db ws includeDiscarded).length = 200 ∧
      ∃ oldest ∈ shownEvents db ws includeDiscarded,
        ∀ e ∈ shownEvents db ws includeDiscarded, e ≠ oldest →
          (∃! row, row ∈ dlqRows db (workspaceEndpointIds db ws) includeDiscarded ∧ row.1 = e) ∧
            -e.receivedAt < -oldest.receivedAt := by
  refine and_congr_right fun _ => exists_congr fun oldest => and_congr_right fun hold => ?_
  refine forall_congr' fun e => forall_congr' fun he => ?_
  have hne : e.id ≠ oldest.id ↔ e ≠ oldest := by
    refine not_congr ⟨?_, congrArg Event.id⟩
    exact Rows.eq_of_key_eq (shownEvents_nodup hevents) he hold
  rw [hne, existsUnique_row_iff he, neg_lt_neg_iff]

/-- Exactly when the list shows every event once. More than 200 events are
never listed together, since the query refuses the limit. -/
theorem lists_once_iff (env : Env) (db : Database) (ws : UUID) (includeDiscarded : Bool)
    (hevents : (db.events.map Event.id).Nodup)
    (hattempts : (db.attempts.map DeliveryAttempt.id).Nodup) :
    ListsOnce env db ws includeDiscarded ↔
      200 < (workspaceEvents db ws).length ∨
      (∀ e ∈ shownEvents db ws includeDiscarded, ∀ a b, IsLast db e.id a → IsLast db e.id b →
        a = b) ∨
      FullPage db ws includeDiscarded := by
  rcases Nat.lt_or_ge 200 (workspaceEvents db ws).length with hmany | hfew
  · exact iff_of_true (listsOnce_of_many hmany) (Or.inl hmany)
  have hshown : (shownEvents db ws includeDiscarded).length ≤ 200 :=
    (List.length_filter_le _ _).trans hfew
  have hiff := nodup_owner_firstRows_iff (fun e : Event => -e.receivedAt)
    (dlqRows_nodup hevents hattempts) (List.Nodup.of_map _ (shownEvents_nodup hevents))
    (fun row hrow => (mem_dlqRows_iff.mp hrow).1) hshown
  rw [listsOnce_iff_firstDlq hevents hfew, or_iff_right (not_lt.mpr hfew),
    fullPage_iff hevents, ← dlqRows_fst_nodup_iff hevents hattempts]
  exact hiff

/-! ### Retries on two routes, and two first attempts that both fail -/

def shopRoute : Route where
  id := 5
  endpointId := ordersEndpoint.id
  name := "shop"
  url := "https://example.com"

def mirrorRoute : Route where
  id := 6
  endpointId := ordersEndpoint.id
  name := "mirror"
  url := "https://example.org"

def failedEvent : Event where
  id := 20
  endpointId := ordersEndpoint.id
  requestBody := .null

def mirrorFailedEvent : Event where
  id := 21
  endpointId := ordersEndpoint.id
  requestBody := .null
  receivedAt := 3

def deliveredEvent : Event where
  id := 22
  endpointId := ordersEndpoint.id
  requestBody := .null
  receivedAt := 6

def answeredAttempt (id : UUID) (event : Event) (route : Route) (number : ℤ) (status : ℕ)
    (attemptedAt : Time) : DeliveryAttempt where
  id := id
  eventId := event.id
  routeId := route.id
  attemptNumber := number
  requestUrl := route.url
  requestBody := .null
  responseStatus := some status
  attemptedAt := attemptedAt

def firstFailure : DeliveryAttempt := answeredAttempt 30 failedEvent shopRoute 0 503 0

def secondRouteFailure : DeliveryAttempt := answeredAttempt 31 failedEvent mirrorRoute 0 503 0

/-- The retry of `firstFailure` fails too. -/
def retryFailure : DeliveryAttempt := answeredAttempt 32 failedEvent shopRoute 1 503 2

def mirrorRetryFailure : DeliveryAttempt := answeredAttempt 33 mirrorFailedEvent mirrorRoute 1 500 5

/-- An endpoint with two routes and three events, not yet delivered. -/
def undeliveredStore : Database where
  users := [⟨1, "ann@example.com", "ann", "", true⟩]
  workspaces := [⟨9, "shop", "shop-9"⟩]
  memberships := [adminMembership]
  endpoints := [ordersEndpoint]
  routes := [shopRoute, mirrorRoute]
  events := [failedEvent, mirrorFailedEvent, deliveredEvent]

/-- Two events fail again when one of their routes is tried again, the third is
delivered. -/
def retriedStore : Database :=
  { undeliveredStore with
    attempts := [firstFailure, answeredAttempt 34 failedEvent mirrorRoute 0 200 1, retryFailure,
      answeredAttempt 35 mirrorFailedEvent shopRoute 0 200 3,
      answeredAttempt 36 mirrorFailedEvent mirrorRoute 0 503 4, mirrorRetryFailure,
      answeredAttempt 37 deliveredEvent shopRoute 0 200 6,
      answeredAttempt 38 deliveredEvent mirrorRoute 0 204 7] }

/-- The first attempt on each of the two routes fails. -/
def twoRoutesStore : Database :=
  { undeliveredStore with attempts := [firstFailure, secondRouteFailure] }

theorem lists_once_retriedStore :
    (retriedStore.events.map Event.id).Nodup ∧
      (retriedStore.attempts.map DeliveryAttempt.id).Nodup ∧
      ListsOnce rotationEnv retriedStore 9 false := by
  have hevents : (retriedStore.events.map Event.id).Nodup := by decide
  have hattempts : (retriedStore.attempts.map DeliveryAttempt.id).Nodup := by decide
  refine ⟨hevents, hattempts, ?_⟩
  rw [lists_once_iff rotationEnv retriedStore 9 false hevents hattempts]
  right
  left
  -- one attempt of each failed event carries its greatest failed number
  have honce : (((dlqRows retriedStore (workspaceEndpointIds retriedStore 9) false).map
      Prod.fst).map Event.id).Nodup := by decide
  exact (dlqRows_fst_nodup_iff hevents hattempts).mp (.of_map _ honce)

/-- The list shows the event of `twoRoutesStore` twice. -/
theorem listed_twice : ¬ ListsOnce rotationEnv twoRoutesStore 9 false := by
  intro h
  have honce := h (fun _ => 0) 200 _ (by decide) (listDlq_of_valid (by constructor <;> norm_num))
  revert honce
  decide

end Once

/-! ## Only unresolved failures -/

section Unresolved

/-- On some route the latest attempt of the event failed. -/
def Unresolved (db : Database) (id : UUID) : Prop :=
  ∃ a ∈ db.attempts, a.eventId = id ∧ failedAttempt a = true ∧
    ∀ b ∈ db.attempts, b.eventId = id → b.routeId = a.routeId → b.attemptedAt ≤ a.attemptedAt

/-- What is reported as the last failure is a failed attempt of the event. -/
def ReportsFailure (db : Database) (out : DlqEventOut) : Prop :=
  ∃ a ∈ db.attempts, a.eventId = out.eventId ∧ failedAttempt a = true ∧
    out.lastError = a.error ∧ out.lastStatus = a.responseStatus ∧ out.lastUrl = a.requestUrl

def ShowsUnresolved (env : Env) (db : Database) (ws : UUID) (includeDiscarded : Bool) : Prop :=
  ∀ (tie : UUID → ℕ) (limit offset : ℤ) (outs : List DlqEventOut),
    listDlq { env with tie } db ws includeDiscarded limit offset =
        .ok (.answer 200 (.dlq outs)) →
      ∀ out ∈ outs, Unresolved db out.eventId ∧ ReportsFailure db out

/-- The greatest `OFFSET`. -/
def lastOffset : ℕ := 2 ^ 63 - 1

/-- Some page reaches the event: not too many events received later, each with
its last attempts, come before it. -/
def Reached (db : Database) (ws : UUID) (includeDiscarded : Bool) (e : Event) : Prop :=
  {later : Event × DeliveryAttempt | later.1 ∈ shownEvents db ws includeDiscarded ∧
    IsLast db later.1.id later.2 ∧ e.receivedAt < later.1.receivedAt}.ncard < lastOffset + 200

variable {env : Env} {db : Database} {ws : UUID} {includeDiscarded : Bool}
  {row : Event × DeliveryAttempt}

/-- The error and the status say whether an attempt failed, so a row reports a
failure if and only if its own attempt failed. -/
theorem reportsFailure_iff (hrow : row ∈ dlqRows db (workspaceEndpointIds db ws) includeDiscarded) :
    ReportsFailure db (dlqEventOut db.attempts row) ↔ failedAttempt row.2 = true := by
  have hlast := (mem_dlqRows_iff.mp hrow).2
  constructor
  · rintro ⟨a, -, -, hfailed, herror, hstatus, -⟩
    change row.2.error = a.error at herror
    change row.2.responseStatus = a.responseStatus at hstatus
    unfold failedAttempt at hfailed ⊢
    rw [herror, hstatus]
    exact hfailed
  · intro hfailed
    exact ⟨row.2, hlast.mem, hlast.event, hfailed, rfl, rfl, rfl⟩

theorem reached_iff (hevents : (db.events.map Event.id).Nodup)
    (hattempts : (db.attempts.map DeliveryAttempt.id).Nodup) {e : Event} :
    Reached db ws includeDiscarded e ↔
      (dlqRows db (workspaceEndpointIds db ws) includeDiscarded).countP
        (fun row => e.receivedAt < row.1.receivedAt) < lastOffset + 200 := by
  classical
  have hrows : (dlqRows db (workspaceEndpointIds db ws) includeDiscarded).Nodup :=
    List.Nodup.of_map _ (dlqRows_nodup hevents hattempts)
  have hset : {later : Event × DeliveryAttempt | later.1 ∈ shownEvents db ws includeDiscarded ∧
      IsLast db later.1.id later.2 ∧ e.receivedAt < later.1.receivedAt} =
      ((dlqRows db (workspaceEndpointIds db ws) includeDiscarded).filter
        (fun row => e.receivedAt < row.1.receivedAt)).toFinset := by
    ext row
    simp only [Set.mem_ofPred_eq, Finset.mem_coe, List.mem_toFinset, List.mem_filter,
      mem_dlqRows_iff, decide_eq_true_eq, and_assoc]
  unfold Reached
  rw [hset, Set.ncard_coe_finset, List.toFinset_card_of_nodup (hrows.filter _),
    List.countP_eq_length_filter]

/-- The rows that some page shows. -/
theorem exists_page_iff (env : Env) (hevents : (db.events.map Event.id).Nodup)
    (hattempts : (db.attempts.map DeliveryAttempt.id).Nodup)
    (hrow : row ∈ dlqRows db (workspaceEndpointIds db ws) includeDiscarded) :
    (∃ (tie : UUID → ℕ) (limit offset : ℤ), ValidPage limit offset ∧
        row ∈ page limit.toNat offset.toNat
          (orderedDlq { env with tie } db ws includeDiscarded)) ↔
      Reached db ws includeDiscarded row.1 := by
  have htie := exists_tie_mem_take_iff (fun row : Event × DeliveryAttempt => -row.1.receivedAt)
    (lastOffset + 200) (dlqRows_nodup hevents hattempts) hrow
  simp only [neg_lt_neg_iff] at htie
  rw [reached_iff hevents hattempts, ← htie]
  constructor
  · rintro ⟨tie, limit, offset, hvalid, hmem⟩
    refine ⟨tie, (List.take_prefix_take_left ?_).subset (mem_take_of_mem_page hmem)⟩
    have := hvalid.limit_le
    have := hvalid.offset_lt
    unfold lastOffset
    omega
  · rintro ⟨tie, hmem⟩
    obtain ⟨offset, hoffset, hpage⟩ := exists_mem_page_of_mem_take (by norm_num) hmem
    refine ⟨tie, 200, offset, ?_, hpage⟩
    unfold lastOffset at hoffset
    constructor <;> omega

theorem showsUnresolved_iff_rows : ShowsUnresolved env db ws includeDiscarded ↔
    ∀ (tie : UUID → ℕ) (limit offset : ℤ), ValidPage limit offset →
      ∀ row ∈ page limit.toNat offset.toNat (orderedDlq { env with tie } db ws includeDiscarded),
        Unresolved db row.1.id ∧ ReportsFailure db (dlqEventOut db.attempts row) := by
  constructor
  · intro h tie limit offset hvalid row hrow
    exact h tie limit offset _ (listDlq_of_valid hvalid) _ (List.mem_map_of_mem hrow)
  · intro h tie limit offset outs hlist out hout
    rcases listDlq_eq_ok hlist with rfl | ⟨hvalid, rfl⟩
    · cases hout
    · obtain ⟨row, hrow, rfl⟩ := List.mem_map.mp hout
      exact h tie limit offset hvalid row hrow

/-- Exactly when the list shows nothing but unresolved failures. -/
theorem shows_unresolved_iff (env : Env) (db : Database) (ws : UUID) (includeDiscarded : Bool)
    (hevents : (db.events.map Event.id).Nodup)
    (hattempts : (db.attempts.map DeliveryAttempt.id).Nodup) :
    ShowsUnresolved env db ws includeDiscarded ↔
      ∀ e ∈ shownEvents db ws includeDiscarded, Reached db ws includeDiscarded e →
        ∀ a, IsLast db e.id a → failedAttempt a = true ∧ Unresolved db e.id := by
  rw [showsUnresolved_iff_rows]
  constructor
  · intro h e he hreached a ha
    have hrow : (e, a) ∈ dlqRows db (workspaceEndpointIds db ws) includeDiscarded :=
      mem_dlqRows_iff.mpr ⟨he, ha⟩
    obtain ⟨tie, limit, offset, hvalid, hmem⟩ :=
      (exists_page_iff env hevents hattempts hrow).mpr hreached
    obtain ⟨hunresolved, hreports⟩ := h tie limit offset hvalid (e, a) hmem
    exact ⟨(reportsFailure_iff hrow).mp hreports, hunresolved⟩
  · intro h tie limit offset hvalid row hmem
    have hrow : row ∈ dlqRows db (workspaceEndpointIds db ws) includeDiscarded :=
      mem_orderBy.mp (List.mem_of_mem_drop (List.mem_of_mem_take hmem))
    have hreached :=
      (exists_page_iff env hevents hattempts hrow).mp ⟨tie, limit, offset, hvalid, hmem⟩
    obtain ⟨he, ha⟩ := mem_dlqRows_iff.mp hrow
    obtain ⟨hfailed, hunresolved⟩ := h row.1 he hreached row.2 ha
    exact ⟨hunresolved, (reportsFailure_iff hrow).mpr hfailed⟩

theorem unresolved_retriedStore :
    (retriedStore.events.map Event.id).Nodup ∧
      (retriedStore.attempts.map DeliveryAttempt.id).Nodup ∧
      ShowsUnresolved rotationEnv retriedStore 9 false := by
  have hevents : (retriedStore.events.map Event.id).Nodup := by decide
  have hattempts : (retriedStore.attempts.map DeliveryAttempt.id).Nodup := by decide
  refine ⟨hevents, hattempts, ?_⟩
  rw [shows_unresolved_iff rotationEnv retriedStore 9 false hevents hattempts]
  intro e he _ a ha
  have hrow := mem_dlqRows_iff.mpr (⟨he, ha⟩ : (e, a).1 ∈ _ ∧ IsLast _ _ (e, a).2)
  have hrows : dlqRows retriedStore (workspaceEndpointIds retriedStore 9) false =
      [(failedEvent, retryFailure), (mirrorFailedEvent, mirrorRetryFailure)] := rfl
  rw [hrows] at hrow
  rcases List.mem_pair.mp hrow with heq | heq
  · obtain ⟨rfl, rfl⟩ := Prod.mk.inj heq
    exact ⟨by decide, retryFailure, ha.mem, rfl, by decide, by decide⟩
  · obtain ⟨rfl, rfl⟩ := Prod.mk.inj heq
    exact ⟨by decide, mirrorRetryFailure, ha.mem, rfl, by decide, by decide⟩

/-- The retry of `firstFailure` is delivered. -/
def retrySuccess : DeliveryAttempt := answeredAttempt 32 failedEvent shopRoute 1 200 2

def recoveredStore : Database :=
  { undeliveredStore with attempts := [firstFailure, retrySuccess] }

/-- An event that was delivered by a retry stays in the list. -/
theorem recovered_listed : ¬ ShowsUnresolved rotationEnv recoveredStore 9 false := by
  intro h
  have hshown := h (fun _ => 0) 50 0 _ (listDlq_of_valid (by constructor <;> norm_num))
    (dlqEventOut recoveredStore.attempts (failedEvent, firstFailure)) List.mem_cons_self
  obtain ⟨a, ha, -, hfailed, hlatest⟩ := hshown.1
  rcases List.mem_cons.mp ha with rfl | ha
  · have hlater := hlatest retrySuccess (List.mem_cons_of_mem _ (List.mem_singleton_self _)) rfl rfl
    revert hlater
    decide
  · rw [List.mem_singleton.mp ha] at hfailed
    revert hfailed
    decide

end Unresolved

end WebhookRelay.Api
