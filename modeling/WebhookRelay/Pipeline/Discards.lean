import WebhookRelay.Foundation.Linearization
import WebhookRelay.Api.RouteFields
import WebhookRelay.Pipeline.Ingestion

/-!
# Discarding and restoring

Any number of `discard_dlq_event` and `restore_dlq_event` requests, each an
unlocked read and an `UPDATE` of the columns that differ from it, over the
store with its gateway, relays, schedulers and the rest of the API. A request
that sends an `UPDATE` takes effect there; one that sends none, at its read.
The `History` keeps the order of the effects: the flag of an event is what the
requests on it make of it in that order, which respects real time.
-/

namespace WebhookRelay.Pipeline

open Foundation Gateway Outbox Retry

/-- The two columns that discarding is about. -/
def discardFacts (e : Event) : UUID × Bool × Option Time := (e.id, e.isDiscarded, e.discardedAt)

/-- The two columns that relays and schedulers write. -/
def scheduleFacts (e : Event) : UUID × EventStatus × Option Time := (e.id, e.status, e.retryAt)

/-- Whether an assignment changes the event as it was read. -/
def sendsUpdate (call : DlqCall) (read : Event) : Bool :=
  match call with
  | .discard => !read.isDiscarded
  | .restore => read.isDiscarded || read.discardedAt.isSome

/-- Where a request stands. -/
inductive DlqPhase where
  | absent
  | asked (call : DlqCall) (id : UUID)
  | loaded (call : DlqCall) (read : Event)
  | answered (call : DlqCall) (id : UUID)
  /-- Answered 404, or its process has died. -/
  | failed (call : DlqCall) (id : UUID)

/-- What the request is. -/
def DlqPhase.request : DlqPhase → Option (DlqCall × UUID)
  | absent => none
  | asked call id | answered call id | failed call id => some (call, id)
  | loaded call read => some (call, read.id)

structure DlqState (ξ ζ : Type) where
  store : StoreState ξ ζ
  requests : ℕ → DlqPhase := fun _ => .absent
  history : History ℕ := {}

inductive DlqLabel (ξ ζ : Type) where
  | store (label : StoreLabel ξ ζ)
  | ask (i : ℕ) (call : DlqCall) (id : UUID)
  | read (i : ℕ)
  | write (i : ℕ) (now : Time)
  | fail (i : ℕ)

section Steps

variable {ξ ζ : Type} (rt : Gateway.Runtime) (accountRt : Api.AccountRuntime) (settings : Settings)

def DlqState.moveTo (s : DlqState ξ ζ) (i : ℕ) (phase : DlqPhase) : DlqState ξ ζ :=
  { s with requests := Function.update s.requests i phase }

/-- The end of a request, with a 200. -/
def DlqState.answer (s : DlqState ξ ζ) (i : ℕ) (call : DlqCall) (id : UUID) : DlqState ξ ζ :=
  { s.moveTo i (.answered call id) with history := s.history.answer i }

def DlqState.takeEffect (s : DlqState ξ ζ) (i : ℕ) : DlqState ξ ζ :=
  { s with history := s.history.takeEffect i }

def DlqState.putEvent (s : DlqState ξ ζ) (event : Event) : DlqState ξ ζ :=
  { s with store := { s.store with
      db := { s.store.db with events := Rows.put Event.id event s.store.db.events } } }

/-- What the others do. The two handlers are requests of their own here, and
nobody else writes on the columns of discarding. -/
def others (s : StoreState ξ ζ) : StoreLabel ξ ζ → Bool
  | .retry (.read _ _ _) | .retry (.write _ _) => false
  | .retry (.change event) => (s.db.events.map discardFacts).contains (discardFacts event)
  | .api _ request =>
      match request.operation with
      | .discardDlqEvent _ | .restoreDlqEvent _ => false
      | _ => true
  | _ => true

/-- `_get_event_or_404`. -/
def dlqRead (s : DlqState ξ ζ) (i : ℕ) : Option (DlqState ξ ζ) :=
  match s.requests i with
  | .asked call id =>
      match Rows.get Event.id s.store.db.events id with
      | none => some (s.moveTo i (.failed call id))
      | some event =>
          if sendsUpdate call event then some (s.moveTo i (.loaded call event))
          else some ((s.takeEffect i).moveTo i (.loaded call event))
  | _ => none

/-- The commit and its `UPDATE`, which waits for the lock of its row and is of
the row as it is then. With nothing to send there is an early return, or a
commit that sends nothing. -/
def dlqWrite (s : DlqState ξ ζ) (i : ℕ) (now : Time) : Option (DlqState ξ ζ) :=
  match s.requests i with
  | .loaded call read =>
      if sendsUpdate call read then
        if read.id ∈ s.store.retry.locks.table then none
        else
          match Rows.get Event.id s.store.db.events read.id with
          | none => some (s.moveTo i (.failed call read.id))
          | some row =>
              some (((s.putEvent (call.update now read row)).takeEffect i).answer i call read.id)
      else some (s.answer i call read.id)
  | _ => none

def dlqNext [DecidableEq ξ] [DecidableEq ζ] (s : DlqState ξ ζ) :
    DlqLabel ξ ζ → Option (DlqState ξ ζ)
  | .store label =>
      if others s.store label then
        (storeNext rt accountRt settings s.store label).map (fun t => { s with store := t })
      else none
  | .ask i call id =>
      match s.requests i with
      | .absent => some { s.moveTo i (.asked call id) with history := s.history.ask i }
      | _ => none
  | .read i => dlqRead s i
  | .write i now => dlqWrite s i now
  | .fail i =>
      match s.requests i with
      | .asked call id => some (s.moveTo i (.failed call id))
      | .loaded call read => some (s.moveTo i (.failed call read.id))
      | _ => none

/-- From empty tables of events and records, before any request. -/
def dlq (ξ ζ : Type) [DecidableEq ξ] [DecidableEq ζ] :
    Machine (DlqState ξ ζ) (DlqLabel ξ ζ) where
  init := fun s => (store rt accountRt settings ξ ζ).init s.store ∧
    s.requests = (fun _ => .absent) ∧ s.history = {}
  next := dlqNext rt accountRt settings

end Steps

/-! ## What the requests make of the flag, one after another -/

/-- What each request asks for. -/
def DlqState.asks {ξ ζ : Type} (s : DlqState ξ ζ) : ℕ → Option (DlqCall × UUID) :=
  fun i => (s.requests i).request

/-- What a call assigns to the flag. -/
def assigned : DlqCall → Bool
  | .discard => true
  | .restore => false

/-- One request on an event. -/
def setFlag (asks : ℕ → Option (DlqCall × UUID)) (id : UUID) (flag : Bool) (i : ℕ) : Bool :=
  match asks i with
  | some (call, event) => if event = id then assigned call else flag
  | none => flag

/-- The requests on an event in some order, from the start. -/
def flagAfter (asks : ℕ → Option (DlqCall × UUID)) (id : UUID) (order : List ℕ) : Bool :=
  order.foldl (setFlag asks id) false

section Flags

variable {asks asks' : ℕ → Option (DlqCall × UUID)} {id : UUID} {order : List ℕ} {i : ℕ}

theorem flagAfter_snoc :
    flagAfter asks id (order ++ [i]) = setFlag asks id (flagAfter asks id order) i := by
  unfold flagAfter
  rw [List.foldl_append, List.foldl_cons, List.foldl_nil]

theorem flagAfter_congr (h : ∀ i ∈ order, asks' i = asks i) :
    flagAfter asks' id order = flagAfter asks id order := by
  apply List.foldl_ext
  intro flag i hi
  unfold setFlag
  rw [h i hi]

theorem setFlag_of_ne {call : DlqCall} {event : UUID} {flag : Bool}
    (hasks : asks i = some (call, event)) (hne : event ≠ id) : setFlag asks id flag i = flag := by
  unfold setFlag
  rw [hasks]
  exact if_neg hne

theorem setFlag_self {call : DlqCall} {flag : Bool} (hasks : asks i = some (call, id)) :
    setFlag asks id flag i = assigned call := by
  unfold setFlag
  rw [hasks]
  exact if_pos rfl

/-- Requests on other events, or of which nothing is known yet. -/
theorem flagAfter_eq_false
    (h : ∀ i ∈ order, ∀ call event, asks i = some (call, event) → event ≠ id) :
    flagAfter asks id order = false := by
  induction order using List.reverseRecOn with
  | nil => rfl
  | append_singleton order i ih =>
      rw [flagAfter_snoc, ih (fun j hj => h j (List.mem_append_left _ hj))]
      cases hasks : asks i with
      | none => simp [setFlag, hasks]
      | some ask =>
          exact setFlag_of_ne hasks (h i (List.mem_append_right _ (List.mem_singleton_self i)) _ _
            hasks)

end Flags

/-! ## The others leave the columns alone -/

variable {ξ ζ : Type} [DecidableEq ξ] [DecidableEq ζ] {rt : Gateway.Runtime}
  {accountRt : Api.AccountRuntime} {settings : Settings}

/-- The rows that schedulers hold. -/
structure EventLocks (s : StoreState ξ ζ) : Prop where
  locked : RowLocks.WellLocked Event.id s.db.events s.retry.locks
  staged : RowLocks.StagedLike discardFacts s.retry.locks

/-- The rows are what they were in the columns of discarding, or there is one
more, of an event that is not discarded. -/
def DiscardsKept (s t : StoreState ξ ζ) : Prop :=
  t.db.events.map discardFacts = s.db.events.map discardFacts ∨
    ∃ e, t.db.events = s.db.events ++ [e] ∧ e.isDiscarded = false ∧ e.discardedAt = none

theorem eq_id_of_discardFacts {a b : Event} (h : discardFacts a = discardFacts b) : a.id = b.id :=
  congrArg Prod.fst h

theorem map_discardFacts_queueEvents (ids : List UUID) (events : List Event) :
    (queueEvents ids events).map discardFacts = events.map discardFacts := by
  unfold queueEvents
  rw [List.map_map]
  apply List.map_congr_left
  intro e _
  show discardFacts (if e.id ∈ ids then { e with status := .queued } else e) = discardFacts e
  split <;> rfl

theorem discardFacts_requeueEvent (now : Time) (result : Except Exc Unit) (e : Event) :
    discardFacts (requeueEvent now result e) = discardFacts e := by
  cases result <;> rfl

section Others

variable {s t : StoreState ξ ζ}

omit [DecidableEq ξ] [DecidableEq ζ] in
theorem kept_gateway {label : GatewayLabel} (hinv : StoreInv settings s) (h : EventLocks s)
    (hstep : gatewayStep rt settings s label = some t) : EventLocks t ∧ DiscardsKept s t := by
  obtain ⟨g, _, _, ⟨_, _, rfl, _⟩ |
    ⟨i, eventId, outboxId, request, endpoint, payload, setNxAt, _, hevent, _, _, _, rfl⟩⟩ :=
    gatewayStep_cases hstep
  · exact ⟨⟨h.locked, h.staged⟩, Or.inl rfl⟩
  · have hfresh : eventId ∉ s.db.events.map Event.id := hinv.ledger_ids ▸ hevent
    exact ⟨⟨h.locked.insert hfresh, h.staged⟩, Or.inr ⟨_, rfl, rfl, rfl⟩⟩

omit [DecidableEq ζ] in
/-- A relay queues events that no scheduler holds. -/
theorem kept_relay {label : RelayLabel ξ} (h : EventLocks s) (hstep : relayStep s label = some t) :
    EventLocks t ∧ t.db.events.map discardFacts = s.db.events.map discardFacts := by
  unfold relayStep at hstep
  split at hstep
  · cases hstep
  · rename_i hingest
    split at hstep
    · cases hstep
    · rename_i hwaits
      obtain ⟨r, hr, rfl⟩ := Option.map_eq_some_iff.mp hstep
      have hsame : r.db.events = s.db.events →
          EventLocks { s with relay := r, db := r.db } ∧
            r.db.events.map discardFacts = s.db.events.map discardFacts := by
        intro hevents
        refine ⟨⟨?_, h.staged⟩, by rw [hevents]⟩
        show RowLocks.WellLocked Event.id r.db.events s.retry.locks
        rw [hevents]
        exact h.locked
      match label with
      | .ingest event record => exact absurd rfl (hingest event record)
      | .select x tie =>
          obtain ⟨_, hdb, _⟩ := Outbox.select_cases hr
          exact hsame (by rw [hdb])
      | .publish x answer =>
          obtain ⟨record, rest, _, _, hdb, _⟩ := Outbox.publishNext_cases hr
          exact hsame (by rw [hdb])
      | .signal x =>
          obtain rfl := Option.some.inj hr
          exact hsame rfl
      | .abort x =>
          obtain ⟨hdb, _⟩ := Outbox.abort_cases hr
          exact hsame (by rw [hdb])
      | .commit x =>
          simp only [relayNext, Outbox.commit, Option.ite_none_right_eq_some, Option.some.injEq]
            at hr
          obtain ⟨_, rfl⟩ := hr
          refine ⟨⟨?_, h.staged⟩, map_discardFacts_queueEvents _ _⟩
          apply h.locked.rows_congr
          · have hfacts := congrArg (List.map Prod.fst)
              (map_discardFacts_queueEvents (s.relay.queued x) s.db.events)
            rwa [List.map_map, List.map_map] at hfacts
          · intro e he htable
            refine List.mem_map.mpr ⟨e, he, if_neg ?_⟩
            intro hqueued
            exact hwaits (List.any_eq_true.mpr ⟨e.id, hqueued, by simpa using htable⟩)

omit [DecidableEq ξ] in
theorem kept_retry {label : RetryLabel ζ} (h : EventLocks s)
    (hothers : others s (.retry label : StoreLabel ξ ζ) = true)
    (hstep : retryStep settings s label = some t) :
    EventLocks t ∧ t.db.events.map discardFacts = s.db.events.map discardFacts := by
  simp only [retryStep, Option.ite_none_right_eq_some] at hstep
  obtain ⟨hallowed, hstep⟩ := hstep
  obtain ⟨r, hr, rfl⟩ := Option.map_eq_some_iff.mp hstep
  cases label with
  | insert event => cases hallowed
  | read i call id => cases hothers
  | write i now => cases hothers
  | change event =>
      obtain ⟨_, hfree, rfl⟩ := changeEvent_cases hr
      obtain ⟨row, hrow, hfacts⟩ := List.mem_map.mp (List.contains_iff_mem.mp hothers)
      exact ⟨⟨h.locked.put hfree, h.staged⟩,
        Rows.map_put_of_eq h.locked.rows_nodup hrow (eq_id_of_discardFacts hfacts) hfacts.symm⟩
  | select x now tie =>
      obtain ⟨hidle, _, rfl⟩ := Retry.select_cases hr
      have hmem := fun e (he : e ∈ selectDue tie now s.retry.locks.table s.db.events) =>
        mem_selectDue he
      exact ⟨⟨h.locked.lock hidle (fun e he => (hmem e he).1) (fun e he => (hmem e he).2.2)
        (selectDue_nodup h.locked.rows_nodup), h.staged.lock⟩, rfl⟩
  | publish x now result =>
      obtain ⟨e, rest, htodo, rfl⟩ := Retry.publishNext_cases hr
      have hheld : e ∈ s.retry.locks.held x := List.mem_of_mem_drop (htodo ▸ List.mem_cons_self)
      exact ⟨⟨h.locked.stage hheld (requeueEvent_id now result e).symm,
        h.staged.stage hheld (discardFacts_requeueEvent now result e).symm⟩, rfl⟩
  | commit x =>
      obtain ⟨_, _, rfl⟩ := Retry.commit_cases hr
      exact ⟨⟨h.locked.commit x, h.staged.release x⟩,
        (h.staged.keeps h.locked).map_commit (fun _ _ => eq_id_of_discardFacts)
          h.locked.rows_nodup x⟩
  | abort x =>
      obtain ⟨_, rfl⟩ := Retry.abort_cases hr
      exact ⟨⟨h.locked.abort x, h.staged.release x⟩, rfl⟩

omit [DecidableEq ξ] [DecidableEq ζ] in
/-- No other handler writes on an event. -/
theorem kept_api {env : Api.Env} {request : Api.Request} (h : EventLocks s)
    (hothers : others s (.api env request : StoreLabel ξ ζ) = true)
    (hstep : apiStep settings s env request = some t) :
    EventLocks t ∧ t.db.events = s.db.events := by
  obtain rfl := apiStep_eq hstep
  have hevents : ((Api.handle env settings request s.db).store s.db).events = s.db.events := by
    unfold Api.Outcome.store
    cases hwrite : (Api.handle env settings request s.db).write with
    | none => rfl
    | some w =>
        obtain ⟨outcome, hok, hw⟩ := Api.write_ofHandler hwrite
        obtain ⟨m, _, hok⟩ := exists_of_bind_eq_ok hok
        obtain ⟨m', _, hrun⟩ := exists_of_bind_eq_ok hok
        have hmakes := Api.makes_run request.operation outcome w hrun hw
        cases w with
        | updateEvent event =>
            unfold others at hothers
            -- the two operations that come to it are not theirs
            cases hoperation : request.operation with
            | discardDlqEvent id => simp [hoperation] at hothers
            | restoreDlqEvent id => simp [hoperation] at hothers
            | _ =>
                rw [hoperation] at hmakes
                exact hmakes.elim
        | insertEndpoint _ | updateEndpoint _ | deleteEndpoint _ | insertRoute _ | updateRoute _
        | deleteRoute _ => rfl
  refine ⟨⟨?_, h.staged⟩, hevents⟩
  show RowLocks.WellLocked Event.id _ s.retry.locks
  rw [hevents]
  exact h.locked

omit [DecidableEq ξ] [DecidableEq ζ] in
theorem kept_account {env : Api.AccountEnv} {write : Api.AccountWrite} (h : EventLocks s)
    (hstep : accountStep accountRt s env write = some t) :
    EventLocks t ∧ t.db.events = s.db.events := by
  unfold accountStep at hstep
  split at hstep
  · cases hstep
  · obtain rfl := Option.some.inj hstep
    have hevents : (write.apply accountRt env s.db).events = s.db.events := by
      cases write <;> rfl
    refine ⟨⟨?_, h.staged⟩, hevents⟩
    show RowLocks.WellLocked Event.id _ s.retry.locks
    rw [hevents]
    exact h.locked

theorem kept_others {label : StoreLabel ξ ζ} (hinv : StoreInv settings s) (h : EventLocks s)
    (hothers : others s label = true)
    (hstep : storeNext rt accountRt settings s label = some t) :
    EventLocks t ∧ DiscardsKept s t := by
  cases label with
  | gateway label => exact kept_gateway hinv h hstep
  | relay label =>
      obtain ⟨hlocks, hfacts⟩ := kept_relay h hstep
      exact ⟨hlocks, Or.inl hfacts⟩
  | retry label =>
      obtain ⟨hlocks, hfacts⟩ := kept_retry h hothers hstep
      exact ⟨hlocks, Or.inl hfacts⟩
  | api env request =>
      obtain ⟨hlocks, hevents⟩ := kept_api h hothers hstep
      exact ⟨hlocks, Or.inl (by rw [hevents])⟩
  | account env write =>
      obtain ⟨hlocks, hevents⟩ := kept_account h hstep
      exact ⟨hlocks, Or.inl (by rw [hevents])⟩

end Others

/-! ## Where every request and every row stands -/

/-- What the history says of a request in a phase. -/
def Stands (h : History ℕ) (i : ℕ) : DlqPhase → Prop
  | .absent => i ∉ h.arrived
  | .asked _ _ => i ∈ h.arrived ∧ i ∉ h.effects
  -- with nothing to write it has taken effect at its read
  | .loaded call read => i ∈ h.arrived ∧ (i ∈ h.effects ↔ sendsUpdate call read = false) ∧
      read.isDiscarded = read.discardedAt.isSome
  | .answered _ _ => i ∈ h.answered
  | .failed _ _ => i ∈ h.arrived

theorem stands_congr {h h' : History ℕ} {i : ℕ} {phase : DlqPhase}
    (hsame : History.SameAt h h' i) : Stands h' i phase ↔ Stands h i phase := by
  cases phase <;> simp only [Stands, hsame.arrived, hsame.effects, hsame.answered]

theorem stands_update {h h' : History ℕ} {requests : ℕ → DlqPhase} {i : ℕ} {phase : DlqPhase}
    (hstands : ∀ j, Stands h j (requests j)) (hsame : ∀ j, j ≠ i → History.SameAt h h' j)
    (hself : Stands h' i phase) : ∀ j, Stands h' j (Function.update requests i phase j) := by
  intro j
  by_cases hj : j = i
  · subst hj
    rwa [Function.update_self]
  · rw [Function.update_of_ne hj]
    exact (stands_congr (hsame j hj)).mpr (hstands j)

/-- The two columns agree, and the flag is what the requests have made of it. -/
structure RowStands (asks : ℕ → Option (DlqCall × UUID)) (order : List ℕ)
    (f : UUID × Bool × Option Time) : Prop where
  columns : f.2.1 = f.2.2.isSome
  flag : f.2.1 = flagAfter asks f.1 order

/-- A request takes effect: its own row is as it assigns, the others are as
they were. -/
theorem rowStands_effect {asks : ℕ → Option (DlqCall × UUID)} {order : List ℕ} {i : ℕ}
    {call : DlqCall} {id : UUID} {rows rows' : List Event} (hasks : asks i = some (call, id))
    (hrows : ∀ f ∈ rows.map discardFacts, RowStands asks order f)
    (hself : ∀ e ∈ rows', e.id = id →
      e.isDiscarded = assigned call ∧ e.isDiscarded = e.discardedAt.isSome)
    (hothers : ∀ e ∈ rows', e.id ≠ id → e ∈ rows) :
    ∀ f ∈ rows'.map discardFacts, RowStands asks (order ++ [i]) f := by
  intro f hf
  obtain ⟨e, he, rfl⟩ := List.mem_map.mp hf
  by_cases hid : e.id = id
  · obtain ⟨hflag, hcolumns⟩ := hself e he hid
    refine ⟨hcolumns, ?_⟩
    have hasks' : asks i = some (call, e.id) := hid ▸ hasks
    show e.isDiscarded = flagAfter asks e.id (order ++ [i])
    rw [flagAfter_snoc, setFlag_self hasks', hflag]
  · obtain ⟨hcolumns, hflag⟩ := hrows _ (List.mem_map_of_mem (hothers e he hid))
    refine ⟨hcolumns, ?_⟩
    show e.isDiscarded = flagAfter asks e.id (order ++ [i])
    rw [flagAfter_snoc, setFlag_of_ne hasks (Ne.symm hid)]
    exact hflag

/-- A request with nothing to write finds the flag as it would assign it. -/
theorem assigned_of_unsent {call : DlqCall} {read : Event} (h : sendsUpdate call read = false) :
    read.isDiscarded = assigned call := by
  cases call with
  | discard => simpa [sendsUpdate, assigned] using h
  | restore =>
      simp only [sendsUpdate, Bool.or_eq_false_iff] at h
      exact h.1

/-- From a row whose columns agree, an `UPDATE` writes both of them. -/
theorem update_discards {call : DlqCall} {now : Time} {read row : Event}
    (hcolumns : read.isDiscarded = read.discardedAt.isSome)
    (hsends : sendsUpdate call read = true) :
    (call.update now read row).isDiscarded = assigned call ∧
      (call.update now read row).isDiscarded = (call.update now read row).discardedAt.isSome := by
  cases call with
  | discard => exact ⟨rfl, rfl⟩
  | restore =>
      simp only [sendsUpdate, ← hcolumns, Bool.or_self] at hsends
      simp [DlqCall.update, assigned, hsends, ← hcolumns]

/-- What holds of the store and its requests at any time. -/
structure DlqInv (settings : Settings) (s : DlqState ξ ζ) : Prop where
  store : StoreInv settings s.store
  locks : EventLocks s.store
  lawful : s.history.Lawful
  stands : ∀ i, Stands s.history i (s.requests i)
  rows : ∀ f ∈ s.store.db.events.map discardFacts, RowStands s.asks s.history.effects f
  known : ∀ i ∈ s.history.effects, ∀ call id, s.asks i = some (call, id) →
    id ∈ s.store.db.events.map Event.id

section Invariant

variable {s t : DlqState ξ ζ}

omit [DecidableEq ξ] [DecidableEq ζ] in
theorem asks_moveTo {i : ℕ} {phase : DlqPhase} (h : phase.request = s.asks i) :
    (s.moveTo i phase).asks = s.asks := by
  funext j
  show (Function.update s.requests i phase j).request = s.asks j
  by_cases hj : j = i
  · subst hj
    rwa [Function.update_self]
  · rw [Function.update_of_ne hj]
    rfl

omit [DecidableEq ξ] [DecidableEq ζ] in
theorem asks_of_phase {i : ℕ} {phase : DlqPhase} (h : s.requests i = phase) :
    s.asks i = phase.request :=
  congrArg DlqPhase.request h

omit [DecidableEq ξ] [DecidableEq ζ] in
/-- Ids are never given up. -/
theorem ids_kept {a b : StoreState ξ ζ} (h : DiscardsKept a b) :
    ∀ id ∈ a.db.events.map Event.id, id ∈ b.db.events.map Event.id := by
  intro id hid
  rcases h with hsame | ⟨e, hevents, _⟩
  · have hids := congrArg (List.map Prod.fst) hsame
    rw [List.map_map, List.map_map] at hids
    exact hids.symm ▸ hid
  · rw [hevents, List.map_append]
    exact List.mem_append_left _ hid

theorem dlqInv_store {label : StoreLabel ξ ζ} {after : StoreState ξ ζ} (h : DlqInv settings s)
    (hothers : others s.store label = true)
    (hstep : storeNext rt accountRt settings s.store label = some after) :
    DlqInv settings { s with store := after } := by
  obtain ⟨hlocks, hkept⟩ := kept_others h.store h.locks hothers hstep
  have hstore : StoreInv settings after := storeInv_step h.store hstep
  refine ⟨hstore, hlocks, h.lawful, h.stands, ?_,
    fun i hi call id hasks => ids_kept hkept id (h.known i hi call id hasks)⟩
  show ∀ f ∈ after.db.events.map discardFacts, RowStands s.asks s.history.effects f
  rcases hkept with hsame | ⟨e, hevents, hflag, hat⟩
  · rw [hsame]
    exact h.rows
  · have hnodup := hstore.events_nodup
    rw [hevents, List.map_append] at hnodup
    rw [hevents, List.map_append]
    intro f hf
    rcases List.mem_append.mp hf with hold | hnew
    · exact h.rows f hold
    -- no request has taken effect on a row that was not there
    · obtain rfl := List.mem_singleton.mp hnew
      have hfalse : flagAfter s.asks e.id s.history.effects = false := by
        apply flagAfter_eq_false
        rintro i hi call event hasks rfl
        exact List.disjoint_of_nodup_append hnodup (h.known i hi call _ hasks)
          (List.mem_singleton_self _)
      refine ⟨?_, ?_⟩
      · show e.isDiscarded = e.discardedAt.isSome
        rw [hflag, hat]
        rfl
      · show e.isDiscarded = flagAfter s.asks e.id s.history.effects
        rw [hflag, hfalse]

omit [DecidableEq ξ] [DecidableEq ζ] in
/-- A request goes on without taking effect. -/
theorem dlqInv_moveTo {i : ℕ} {phase : DlqPhase} (h : DlqInv settings s)
    (hrequest : phase.request = s.asks i) (hself : Stands s.history i phase) :
    DlqInv settings (s.moveTo i phase) := by
  refine ⟨h.store, h.locks, h.lawful,
    stands_update h.stands (fun _ _ => .refl) hself, ?_, ?_⟩
  · rw [asks_moveTo hrequest]
    exact h.rows
  · rw [asks_moveTo hrequest]
    exact h.known

omit [DecidableEq ξ] [DecidableEq ζ] in
/-- A request that has taken effect is answered. -/
theorem dlqInv_answer {i : ℕ} {call : DlqCall} {id : UUID} (h : DlqInv settings s)
    (hrequest : s.asks i = some (call, id)) (hdone : i ∈ s.history.effects) :
    DlqInv settings (s.answer i call id) := by
  have hasks : (s.answer i call id).asks = s.asks := asks_moveTo hrequest.symm
  refine ⟨h.store, h.locks, h.lawful.answer hdone,
    stands_update h.stands (fun _ hj => History.sameAt_answer hj) ?_, ?_, ?_⟩
  · exact List.mem_append_right _ (List.mem_singleton_self i)
  · rw [hasks]
    exact h.rows
  · rw [hasks]
    exact h.known

omit [DecidableEq ξ] [DecidableEq ζ] in
/-- A request takes effect. -/
theorem dlqInv_effect {i : ℕ} {phase : DlqPhase} {call : DlqCall} {id : UUID}
    {after : StoreState ξ ζ} (h : DlqInv settings s) (hstore : StoreInv settings after)
    (hlocks : EventLocks after)
    (hids : after.db.events.map Event.id = s.store.db.events.map Event.id)
    (hrows : ∀ f ∈ after.db.events.map discardFacts,
      RowStands s.asks (s.history.effects ++ [i]) f)
    (hrequest : s.asks i = some (call, id)) (hid : id ∈ s.store.db.events.map Event.id)
    (harrived : i ∈ s.history.arrived) (hpending : i ∉ s.history.effects)
    (hphase : phase.request = some (call, id))
    (hself : Stands (s.history.takeEffect i) i phase) :
    DlqInv settings (({ s with store := after }.takeEffect i).moveTo i phase) := by
  have hasks : (({ s with store := after }.takeEffect i).moveTo i phase).asks = s.asks :=
    asks_moveTo (hphase.trans hrequest.symm)
  refine ⟨hstore, hlocks, h.lawful.takeEffect harrived hpending,
    stands_update h.stands (fun _ hj => History.sameAt_takeEffect hj) hself, ?_, ?_⟩
  · rw [hasks]
    exact hrows
  · rw [hasks]
    intro j hj call' event hasks'
    show event ∈ after.db.events.map Event.id
    rw [hids]
    rcases List.mem_append.mp hj with hold | hnew
    · exact h.known j hold call' event hasks'
    · obtain rfl := List.mem_singleton.mp hnew
      obtain ⟨_, rfl⟩ := Prod.mk.inj (Option.some.inj (hrequest.symm.trans hasks'))
      exact hid

omit [DecidableEq ξ] [DecidableEq ζ] in
theorem dlqInv_read {i : ℕ} (h : DlqInv settings s) (hstep : dlqRead s i = some t) :
    DlqInv settings t := by
  unfold dlqRead at hstep
  split at hstep
  · rename_i call id hphase
    have hrequest : s.asks i = some (call, id) := asks_of_phase hphase
    obtain ⟨harrived, hpending⟩ : Stands s.history i (.asked call id) := hphase ▸ h.stands i
    split at hstep
    · obtain rfl := Option.some.inj hstep
      exact dlqInv_moveTo h hrequest.symm harrived
    · rename_i event hget
      obtain ⟨hevent, rfl⟩ := (Rows.get_eq_some_iff h.store.events_nodup).mp hget
      have hcolumns := (h.rows _ (List.mem_map_of_mem hevent)).columns
      split at hstep
      · rename_i hsends
        obtain rfl := Option.some.inj hstep
        refine dlqInv_moveTo h hrequest.symm ⟨harrived, ?_, hcolumns⟩
        simp [hpending, hsends]
      -- the row is as the request would have it
      · rename_i hsends
        rw [Bool.not_eq_true] at hsends
        obtain rfl := Option.some.inj hstep
        refine dlqInv_effect h h.store h.locks rfl ?_ hrequest (List.mem_map_of_mem hevent)
          harrived hpending rfl ⟨harrived, ?_, hcolumns⟩
        · refine rowStands_effect hrequest h.rows ?_ (fun _ he _ => he)
          intro e he hid
          obtain rfl := Rows.eq_of_key_eq h.store.events_nodup he hevent hid
          exact ⟨assigned_of_unsent hsends, hcolumns⟩
        · simp [History.takeEffect, hsends]
  · cases hstep

omit [DecidableEq ξ] [DecidableEq ζ] in
/-- The `UPDATE` of a request whose row is still there, and its answer. -/
theorem dlqInv_update {i : ℕ} {call : DlqCall} {now : Time} {read row : Event}
    (h : DlqInv settings s) (hphase : s.requests i = .loaded call read)
    (hsends : sendsUpdate call read = true) (hrow : row ∈ s.store.db.events)
    (hid : row.id = read.id) (hfree : read.id ∉ s.store.retry.locks.table) :
    DlqInv settings
      (((s.putEvent (call.update now read row)).takeEffect i).answer i call read.id) := by
  have hrequest : s.asks i = some (call, read.id) := asks_of_phase hphase
  obtain ⟨harrived, heffect, hcolumns⟩ : Stands s.history i (.loaded call read) :=
    hphase ▸ h.stands i
  have hpending : i ∉ s.history.effects := by simp [heffect, hsends]
  have hnew : (call.update now read row).id = read.id :=
    (DlqCall.update_id call now read row).trans hid
  have hmem : read.id ∈ s.store.db.events.map Event.id := hid ▸ List.mem_map_of_mem hrow
  have hstore : StoreInv settings (s.putEvent (call.update now read row)).store := by
    refine storeInv_sameFacts h.store ⟨rfl, ?_⟩ ⟨rfl, rfl⟩ h.store.relay_keeps h.store.retry_keeps
    exact Rows.map_put_of_eq h.store.events_nodup hrow (hid.trans hnew.symm)
      (eventFacts_update call now read row)
  have hrows : ∀ f ∈ (Rows.put Event.id (call.update now read row) s.store.db.events).map
      discardFacts, RowStands s.asks (s.history.effects ++ [i]) f := by
    apply rowStands_effect hrequest h.rows
    · intro e he heid
      rcases Rows.mem_put he with ⟨rfl, _⟩ | ⟨_, hne⟩
      · exact update_discards hcolumns hsends
      · exact absurd (heid.trans hnew.symm) hne
    · intro e he hne
      rcases Rows.mem_put he with ⟨rfl, _⟩ | ⟨hold, _⟩
      · exact absurd hnew hne
      · exact hold
  -- it takes effect before it is answered
  have hself : Stands (s.history.takeEffect i) i (.failed call read.id) := harrived
  have hdone := dlqInv_effect h hstore ⟨h.locks.locked.put (hnew ▸ hfree), h.locks.staged⟩
    Rows.map_key_put hrows hrequest hmem harrived hpending rfl hself
  have hfailed := Function.update_self i (DlqPhase.failed call read.id) s.requests
  have hanswered := dlqInv_answer hdone (congrArg DlqPhase.request hfailed)
    (List.mem_append_right _ (List.mem_singleton_self i))
  have hsame : Function.update (Function.update s.requests i (.failed call read.id)) i
      (.answered call read.id) = Function.update s.requests i (.answered call read.id) :=
    Function.update_idem _ _ _
  simp only [DlqState.answer, DlqState.moveTo, DlqState.takeEffect, hsame] at hanswered
  exact hanswered

omit [DecidableEq ξ] [DecidableEq ζ] in
theorem dlqInv_write {i : ℕ} {now : Time} (h : DlqInv settings s)
    (hstep : dlqWrite s i now = some t) : DlqInv settings t := by
  unfold dlqWrite at hstep
  split at hstep
  · rename_i call read hphase
    have hrequest : s.asks i = some (call, read.id) := asks_of_phase hphase
    obtain ⟨harrived, heffect, _⟩ : Stands s.history i (.loaded call read) := hphase ▸ h.stands i
    split at hstep
    · rename_i hsends
      split at hstep
      · cases hstep
      · rename_i hfree
        split at hstep
        · obtain rfl := Option.some.inj hstep
          exact dlqInv_moveTo h hrequest.symm harrived
        · rename_i row hget
          obtain rfl := Option.some.inj hstep
          obtain ⟨hrow, hid⟩ := (Rows.get_eq_some_iff h.store.events_nodup).mp hget
          exact dlqInv_update h hphase hsends hrow hid hfree
    · rename_i hsends
      obtain rfl := Option.some.inj hstep
      exact dlqInv_answer h hrequest (heffect.mpr (by simpa using hsends))
  · cases hstep

omit [DecidableEq ξ] [DecidableEq ζ] in
theorem dlqInv_ask {i : ℕ} {call : DlqCall} {id : UUID} (h : DlqInv settings s)
    (hphase : s.requests i = .absent) :
    DlqInv settings { s.moveTo i (.asked call id) with history := s.history.ask i } := by
  have hnew : i ∉ s.history.arrived := by
    have hstands : Stands s.history i .absent := hphase ▸ h.stands i
    exact hstands
  have hpending : i ∉ s.history.effects := fun hi => hnew (h.lawful.linear.arrived i hi)
  -- what has taken effect is asked for as before
  have hasks : ∀ j ∈ s.history.effects,
      DlqState.asks { s.moveTo i (.asked call id) with history := s.history.ask i } j =
        s.asks j := by
    intro j hj
    have hne : j ≠ i := fun heq => hpending (heq ▸ hj)
    show (Function.update s.requests i _ j).request = s.asks j
    rw [Function.update_of_ne hne]
    rfl
  refine ⟨h.store, h.locks, h.lawful.ask hnew,
    stands_update h.stands (fun _ hj => History.sameAt_ask hj) ?_, ?_, ?_⟩
  · exact ⟨List.mem_append_right _ (List.mem_singleton_self i), hpending⟩
  · intro f hf
    obtain ⟨hcolumns, hflag⟩ := h.rows f hf
    exact ⟨hcolumns, hflag.trans (flagAfter_congr hasks).symm⟩
  · intro j hj call' event hasks'
    exact h.known j hj call' event ((hasks j hj).symm.trans hasks')

theorem dlqInv_step {label : DlqLabel ξ ζ} (h : DlqInv settings s)
    (hstep : dlqNext rt accountRt settings s label = some t) : DlqInv settings t := by
  cases label with
  | store label =>
      simp only [dlqNext, Option.ite_none_right_eq_some] at hstep
      obtain ⟨hothers, hstep⟩ := hstep
      obtain ⟨after, hafter, rfl⟩ := Option.map_eq_some_iff.mp hstep
      exact dlqInv_store h hothers hafter
  | ask i call id =>
      simp only [dlqNext] at hstep
      split at hstep
      · rename_i hphase
        obtain rfl := Option.some.inj hstep
        exact dlqInv_ask h hphase
      · cases hstep
  | read i => exact dlqInv_read h hstep
  | write i now => exact dlqInv_write h hstep
  | fail i =>
      simp only [dlqNext] at hstep
      split at hstep
      · rename_i call id hphase
        obtain rfl := Option.some.inj hstep
        have hstands : Stands s.history i (.asked call id) := hphase ▸ h.stands i
        exact dlqInv_moveTo h (asks_of_phase hphase).symm hstands.1
      · rename_i call read hphase
        obtain rfl := Option.some.inj hstep
        have hstands : Stands s.history i (.loaded call read) := hphase ▸ h.stands i
        exact dlqInv_moveTo h (asks_of_phase hphase).symm hstands.1
      · cases hstep

theorem dlqInv_init (h : (dlq rt accountRt settings ξ ζ).init s) : DlqInv settings s := by
  obtain ⟨hstore, hrequests, hhistory⟩ := h
  have hinv := storeInv_init hstore
  obtain ⟨hevents, _, _, _, hretry⟩ := hstore
  refine ⟨hinv, ⟨?_, ?_⟩, ?_, ?_, ?_, ?_⟩
  · rw [hretry]
    exact RowLocks.wellLocked_empty hinv.events_nodup
  · rw [hretry]
    exact RowLocks.stagedLike_empty
  · rw [hhistory]
    exact History.lawful_empty
  · intro i
    rw [hhistory, hrequests]
    exact List.not_mem_nil
  · intro f hf
    rw [hevents] at hf
    cases hf
  · intro i hi
    rw [hhistory] at hi
    cases hi

theorem dlqInv_reachable (h : (dlq rt accountRt settings ξ ζ).Reachable s) :
    DlqInv settings s :=
  h.invariant (fun _ => dlqInv_init) (fun _ _ _ hinv hstep => dlqInv_step hinv hstep)

end Invariant

/-! ## Who writes what -/

/-- A relay or a scheduler, at its own work. -/
def DlqLabel.ofWorker : DlqLabel ξ ζ → Bool
  | .store (.relay _) => true
  | .store (.retry (.change _)) => false
  | .store (.retry _) => true
  | _ => false

def DlqLabel.ofRequest : DlqLabel ξ ζ → Bool
  | .store _ => false
  | _ => true

section Frames

variable {s t : DlqState ξ ζ}

theorem discards_kept_by_worker {label : DlqLabel ξ ζ} (h : DlqInv settings s)
    (hworker : label.ofWorker = true)
    (hstep : dlqNext rt accountRt settings s label = some t) :
    t.store.db.events.map discardFacts = s.store.db.events.map discardFacts := by
  match label with
  | .store label =>
      simp only [dlqNext, Option.ite_none_right_eq_some] at hstep
      obtain ⟨hothers, hstep⟩ := hstep
      obtain ⟨after, hafter, rfl⟩ := Option.map_eq_some_iff.mp hstep
      match label with
      | .relay label => exact (kept_relay h.locks hafter).2
      | .retry label => exact (kept_retry h.locks hothers hafter).2
      | .gateway _ | .api _ _ | .account _ _ => cases hworker
  | .ask _ _ _ | .read _ | .write _ _ | .fail _ => cases hworker

omit [DecidableEq ξ] [DecidableEq ζ] in
theorem scheduleFacts_update (call : DlqCall) (now : Time) (read row : Event) :
    scheduleFacts (call.update now read row) = scheduleFacts row := by
  cases call <;> rfl

theorem schedule_kept_by_request {label : DlqLabel ξ ζ} (h : DlqInv settings s)
    (hrequest : label.ofRequest = true)
    (hstep : dlqNext rt accountRt settings s label = some t) :
    t.store.db.events.map scheduleFacts = s.store.db.events.map scheduleFacts := by
  match label with
  | .store _ => cases hrequest
  | .ask i call id =>
      simp only [dlqNext] at hstep
      split at hstep
      · obtain rfl := Option.some.inj hstep
        rfl
      · cases hstep
  | .fail i =>
      simp only [dlqNext] at hstep
      split at hstep
      · obtain rfl := Option.some.inj hstep
        rfl
      · obtain rfl := Option.some.inj hstep
        rfl
      · cases hstep
  | .read i =>
      simp only [dlqNext, dlqRead] at hstep
      split at hstep
      · split at hstep
        · obtain rfl := Option.some.inj hstep
          rfl
        · split at hstep
          · obtain rfl := Option.some.inj hstep
            rfl
          · obtain rfl := Option.some.inj hstep
            rfl
      · cases hstep
  | .write i now =>
      simp only [dlqNext, dlqWrite] at hstep
      split at hstep
      · rename_i call read _
        split at hstep
        · split at hstep
          · cases hstep
          · split at hstep
            · obtain rfl := Option.some.inj hstep
              rfl
            · rename_i row hget
              obtain rfl := Option.some.inj hstep
              obtain ⟨hrow, hid⟩ := (Rows.get_eq_some_iff h.store.events_nodup).mp hget
              exact Rows.map_put_of_eq h.store.events_nodup hrow
                (DlqCall.update_id call now read row).symm (scheduleFacts_update call now read row)
        · obtain rfl := Option.some.inj hstep
          rfl
      · cases hstep

end Frames

/-- In every state the two columns agree, relays and schedulers leave them
alone as requests leave theirs, and the flags are what the requests make of
them in an order that respects real time and has every answered one. -/
theorem discards_linearizable {s : DlqState ξ ζ}
    (h : (dlq rt accountRt settings ξ ζ).Reachable s) :
    (∀ e ∈ s.store.db.events, e.isDiscarded = true ↔ e.discardedAt ≠ none) ∧
      (∀ label t, (dlq rt accountRt settings ξ ζ).next s label = some t →
        (label.ofWorker = true →
          t.store.db.events.map discardFacts = s.store.db.events.map discardFacts) ∧
        (label.ofRequest = true →
          t.store.db.events.map scheduleFacts = s.store.db.events.map scheduleFacts)) ∧
      ∃ order, s.history.Linearizes order ∧
        (∀ i call id, s.requests i = .answered call id → i ∈ order) ∧
        ∀ e ∈ s.store.db.events, e.isDiscarded = flagAfter s.asks e.id order := by
  have hinv := dlqInv_reachable h
  refine ⟨?_, ?_, s.history.effects, hinv.lawful.linear, ?_, ?_⟩
  · intro e he
    have hcolumns : e.isDiscarded = e.discardedAt.isSome :=
      (hinv.rows _ (List.mem_map_of_mem he)).columns
    rw [hcolumns, Option.isSome_iff_ne_none]
  · intro label t hstep
    exact ⟨fun hworker => discards_kept_by_worker hinv hworker hstep,
      fun hrequest => schedule_kept_by_request hinv hrequest hstep⟩
  · intro i call id hphase
    have hstands : Stands s.history i (.answered call id) := hphase ▸ hinv.stands i
    exact hinv.lawful.linear.answered i hstands
  · intro e he
    exact (hinv.rows _ (List.mem_map_of_mem he)).flag

/-- A discard and a restore of a failed order cross: the restore finds nothing
to write while the discard is under way, and a scheduler's poll comes before
the `UPDATE`. -/
def crossingRun : List (DlqLabel Unit Unit) :=
  (ingestion 0 "order-7").map (fun label => .store (.gateway label)) ++
  [.store (.relay (.select () (fun _ => 0))), .store (.relay (.publish () .acked)),
    .store (.relay (.commit ())), .store (.retry (.change failedOrder)),
    .ask 0 .discard 10, .read 0, .ask 1 .restore 10,
    .store (.retry (.select () 4 (fun _ => 0))), .store (.retry (.publish () 4 (.ok ()))),
    .read 1, .store (.retry (.commit ())), .write 0 6, .write 1 7,
    .ask 2 .discard 10, .read 2, .write 2 8]

def crossingStart : DlqState Unit Unit where
  store := orderStart

def crossingEnd : DlqState Unit Unit :=
  (dlq sampleRuntime Api.plainText {} Unit Unit).after crossingStart crossingRun

theorem discards_of_crossingRun :
    (∀ e ∈ crossingEnd.store.db.events, e.isDiscarded = true ↔ e.discardedAt ≠ none) ∧
      (∀ label t,
        (dlq sampleRuntime Api.plainText {} Unit Unit).next crossingEnd label = some t →
        (label.ofWorker = true →
          t.store.db.events.map discardFacts = crossingEnd.store.db.events.map discardFacts) ∧
        (label.ofRequest = true →
          t.store.db.events.map scheduleFacts =
            crossingEnd.store.db.events.map scheduleFacts)) ∧
      ∃ order, crossingEnd.history.Linearizes order ∧
        (∀ i call id, crossingEnd.requests i = .answered call id → i ∈ order) ∧
        ∀ e ∈ crossingEnd.store.db.events,
          e.isDiscarded = flagAfter crossingEnd.asks e.id order := by
  have hinit : (dlq sampleRuntime Api.plainText {} Unit Unit).init crossingStart :=
    ⟨⟨rfl, rfl, rfl, rfl, rfl⟩, rfl, rfl⟩
  have hruns :
      ((dlq sampleRuntime Api.plainText {} Unit Unit).exec crossingStart crossingRun).isSome =
        true := by
    decide +kernel
  exact discards_linearizable (Machine.reachable_after hinit hruns)

/-- The restore is served first, and the second discard finds the first. -/
example : crossingEnd.history.effects = [1, 0, 2] ∧
    crossingEnd.store.db.events.map discardFacts = [(10, true, some 6)] := by
  decide +kernel

end WebhookRelay.Pipeline
