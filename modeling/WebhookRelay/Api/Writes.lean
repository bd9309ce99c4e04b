import WebhookRelay.Api.Events

/-!
# What the REST API writes

Where the columns come from that the rest of the relay depends on: the secret
of an endpoint is one the caller chose, a generated one, or the one it had,
and an event that is written back differs from the stored one only in being
discarded or not. What is published is an event of the table. `Handles` goes
through the handlers once for both.
-/

namespace WebhookRelay.Api

open Foundation

/-- What a handler may write. -/
def Write.From (env : Env) (db : Database) : Write → Prop
  | .insertEndpoint ep => ep.hmacSecret ≠ "" ∨ ep.hmacSecret = env.secret
  | .updateEndpoint ep =>
      ep.hmacSecret = env.secret ∨ ∃ old ∈ db.endpoints, old.hmacSecret = ep.hmacSecret
  | .updateEvent event => ∃ old ∈ db.events, ∃ isDiscarded discardedAt,
      event = { old with isDiscarded := isDiscarded, discardedAt := discardedAt }
  | .deleteEndpoint _ | .insertRoute _ | .updateRoute _ | .deleteRoute _ => True

def Writes (env : Env) (db : Database) (result : Except Failure Outcome) : Prop :=
  ∀ outcome, result = .ok outcome → ∀ w, outcome.write = some w → w.From env db

def Publishes (settings : Settings) (db : Database) (result : Except Failure Outcome) : Prop :=
  ∀ outcome, result = .ok outcome →
    ∀ m ∈ outcome.published, ∃ e ∈ db.events, m = replayMessage settings e

/-- What every handler keeps to. -/
structure Handles (env : Env) (settings : Settings) (db : Database)
    (result : Except Failure Outcome) : Prop where
  writes : Writes env db result
  publishes : Publishes settings db result

variable {env : Env} {settings : Settings} {db : Database} {ws : UUID}

namespace Handles

theorem bind {α : Type} {x : Except Failure α} {f : α → Except Failure Outcome}
    (h : ∀ a, x = .ok a → Handles env settings db (f a)) :
    Handles env settings db (x >>= f) := by
  constructor
  · intro outcome hok
    obtain ⟨a, ha, hf⟩ := exists_of_bind_eq_ok hok
    exact (h a ha).writes outcome hf
  · intro outcome hok
    obtain ⟨a, ha, hf⟩ := exists_of_bind_eq_ok hok
    exact (h a ha).publishes outcome hf

theorem error (failure : Failure) : Handles env settings db (.error failure) := by
  constructor <;>
  · intro outcome hok
    cases hok

theorem of {outcome : Outcome} (hwrite : ∀ w, outcome.write = some w → w.From env db)
    (hpublished : ∀ m ∈ outcome.published, ∃ e ∈ db.events, m = replayMessage settings e) :
    Handles env settings db (pure outcome) := by
  constructor
  · intro outcome' hok
    cases hok
    exact hwrite
  · intro outcome' hok
    cases hok
    exact hpublished

theorem answer (status : ℕ) (body : Body) :
    Handles env settings db (pure (Outcome.answer status body)) :=
  of (fun _ h => by cases h) (fun _ h => by cases h)

theorem commit {w : Write} {status : ℕ} {body : Except Failure Body} (h : w.From env db) :
    Handles env settings db (commit env db w >>= fun _ => pure (respond status w body)) := by
  apply bind
  intro _ _
  refine of ?_ (fun _ h => by cases h)
  intro w' hw'
  cases hw'
  exact h

end Handles

theorem endpoint_mem_of_endpointOr404 {id : UUID} {ep : Endpoint}
    (h : endpointOr404 db ws id = .ok ep) : ep ∈ db.endpoints := by
  unfold endpointOr404 at h
  split at h
  · rename_i found hget
    have hmem : found ∈ db.endpoints := List.mem_of_find?_eq_some hget
    split at h
    · cases h
      exact hmem
    · cases h
  · cases h

theorem event_mem_of_eventOr404 {id : UUID} {event : Event}
    (h : eventOr404 db ws id = .ok event) : event ∈ db.events := by
  unfold eventOr404 at h
  split at h
  · cases h
  · rename_i found hget
    have hmem : found ∈ db.events := List.mem_of_find?_eq_some hget
    split at h
    · split at h
      · cases h
        exact hmem
      · cases h
    · cases h

theorem touchEndpoint_hmacSecret (now : Time) (old ep : Endpoint) :
    (touchEndpoint now old ep).hmacSecret = ep.hmacSecret := by
  unfold touchEndpoint
  split <;> rfl

theorem handles_createEndpoint (body : Option EndpointCreate) :
    Handles env settings db (createEndpoint env db ws body) := by
  apply Handles.bind
  intro body _
  apply Handles.commit
  show (if body.hmacSecret.getD "" = "" then env.secret else body.hmacSecret.getD "") ≠ "" ∨
    (if body.hmacSecret.getD "" = "" then env.secret else body.hmacSecret.getD "") = env.secret
  -- an empty secret is replaced by a generated one
  by_cases hempty : body.hmacSecret.getD "" = ""
  · right
    rw [if_pos hempty]
  · left
    rwa [if_neg hempty]

theorem handles_updateEndpoint (endpointId : String) (body : Option EndpointUpdate) :
    Handles env settings db (updateEndpoint env db ws endpointId body) := by
  apply Handles.bind
  intro body _
  apply Handles.bind
  intro id _
  apply Handles.bind
  intro old hold
  apply Handles.commit
  have hkept : (touchEndpoint env.now old (patchEndpoint body old)).hmacSecret = old.hmacSecret :=
    touchEndpoint_hmacSecret env.now old (patchEndpoint body old)
  exact Or.inr ⟨old, endpoint_mem_of_endpointOr404 hold, hkept.symm⟩

theorem handles_rotateSecret (endpointId : String) :
    Handles env settings db (rotateSecret env db ws endpointId) := by
  apply Handles.bind
  intro id _
  apply Handles.bind
  intro old hold
  apply Handles.commit
  exact Or.inl (touchEndpoint_hmacSecret _ _ _)

theorem handles_discardDlqEvent (eventId : String) :
    Handles env settings db (discardDlqEvent env db ws eventId) := by
  apply Handles.bind
  intro id _
  apply Handles.bind
  intro event hevent
  -- a second discard writes nothing
  by_cases hdiscarded : event.isDiscarded = true
  · rw [if_pos hdiscarded]
    exact Handles.answer 200 _
  · rw [if_neg hdiscarded]
    apply Handles.commit
    exact ⟨event, event_mem_of_eventOr404 hevent, _, _, rfl⟩

theorem handles_restoreDlqEvent (eventId : String) :
    Handles env settings db (restoreDlqEvent env db ws eventId) := by
  apply Handles.bind
  intro id _
  apply Handles.bind
  intro event hevent
  apply Handles.commit
  exact ⟨event, event_mem_of_eventOr404 hevent, _, _, rfl⟩

theorem handles_replayEvent (eventId : String) :
    Handles env settings db (replayEvent env settings db ws eventId) := by
  apply Handles.bind
  intro id _
  apply Handles.bind
  intro event hevent
  have hpublished : ∀ m ∈ [replayMessage settings event], ∃ e ∈ db.events,
      m = replayMessage settings e := by
    intro m hm
    exact ⟨event, event_mem_of_eventOr404 hevent, List.mem_singleton.mp hm⟩
  cases env.kafka with
  | noProducer => exact Handles.error _
  | acked => exact Handles.of (fun _ h => by cases h) hpublished
  | raised _ => exact Handles.of (fun _ h => by cases h) hpublished

theorem handles_listEvents (endpointId : Option String) (limit offset : ℤ) :
    Handles env settings db (listEvents env db ws endpointId limit offset) := by
  apply Handles.bind
  intro _ _
  dsimp only
  split
  · exact Handles.answer 200 _
  · exact Handles.bind (fun _ _ => Handles.bind (fun _ _ => Handles.answer 200 _))

theorem handles_listDlq (includeDiscarded : Bool) (limit offset : ℤ) :
    Handles env settings db (listDlq env db ws includeDiscarded limit offset) := by
  apply Handles.bind
  intro _ _
  dsimp only
  split
  · exact Handles.answer 200 _
  · exact Handles.bind (fun _ _ => Handles.answer 200 _)

theorem handles_run (operation : Operation) :
    Handles env settings db (operation.run env settings db ws) := by
  cases operation with
  | createEndpoint body => exact handles_createEndpoint body
  | updateEndpoint endpointId body => exact handles_updateEndpoint endpointId body
  | rotateSecret endpointId => exact handles_rotateSecret endpointId
  | discardDlqEvent eventId => exact handles_discardDlqEvent eventId
  | restoreDlqEvent eventId => exact handles_restoreDlqEvent eventId
  | replayEvent eventId => exact handles_replayEvent eventId
  | listEvents endpointId limit offset => exact handles_listEvents endpointId limit offset
  | listDlq includeDiscarded limit offset => exact handles_listDlq includeDiscarded limit offset
  | listEndpoints => exact Handles.bind (fun _ _ => Handles.answer 200 _)
  | getEndpoint endpointId | listRoutes endpointId =>
      exact Handles.bind (fun _ _ => Handles.bind (fun _ _ => Handles.bind (fun _ _ =>
        Handles.answer 200 _)))
  | getEvent eventId | getEventAttempts eventId =>
      exact Handles.bind (fun _ _ => Handles.bind (fun _ _ => Handles.answer 200 _))
  | deleteEndpoint endpointId | deleteRoute routeId =>
      exact Handles.bind (fun _ _ => Handles.bind (fun _ _ => Handles.commit trivial))
  | addRoute endpointId body =>
      exact Handles.bind (fun _ _ => Handles.bind (fun _ _ => Handles.bind (fun _ _ =>
        Handles.bind (fun _ _ => Handles.commit trivial))))
  | updateRoute routeId body =>
      exact Handles.bind (fun _ _ => Handles.bind (fun _ _ => Handles.bind (fun _ _ =>
        Handles.bind (fun _ _ => Handles.bind (fun _ _ => Handles.commit trivial)))))

theorem write_ofHandler {result : Except Failure Outcome} {w : Write}
    (h : (Outcome.ofHandler result).write = some w) :
    ∃ outcome, result = .ok outcome ∧ outcome.write = some w := by
  cases result with
  | error failure => cases h
  | ok outcome => exact ⟨outcome, rfl, h⟩

/-- Looking up the membership, and then the operation. -/
theorem handles_request (env : Env) (settings : Settings) (db : Database) (request : Request) :
    Handles env settings db
      (getWorkspaceMembership db request.caller request.workspaceId >>= fun membership =>
        requireWorkspaceRole request.operation.minimumRole membership >>= fun membership =>
          request.operation.run env settings db membership.workspaceId) :=
  Handles.bind (fun _ _ => Handles.bind (fun _ _ => handles_run request.operation))

/-- Whatever a request to the API writes. -/
theorem from_of_handle {request : Request} {w : Write}
    (h : (handle env settings request db).write = some w) : w.From env db := by
  obtain ⟨outcome, hok, hw⟩ := write_ofHandler h
  exact (handles_request env settings db request).writes outcome hok w hw

end WebhookRelay.Api
