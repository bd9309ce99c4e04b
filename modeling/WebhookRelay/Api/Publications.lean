import WebhookRelay.Api.Writes

/-!
# What the REST API does to events

Only `replay_event` publishes, and it publishes an event of the table. Only
discarding and restoring write on an event, and they keep what it carries.
-/

namespace WebhookRelay.Api

/-- What an event carries through the pipeline. -/
def eventCore (e : Event) : UUID × UUID × Json × Option Headers :=
  (e.id, e.endpointId, e.requestBody, e.requestHeaders)

structure KeepsEvents (settings : Settings) (db : Database) (outcome : Outcome) : Prop where
  published : ∀ m ∈ outcome.published, ∃ e ∈ db.events, m = replayMessage settings e
  updated : ∀ event, outcome.write = some (.updateEvent event) →
    ∃ old ∈ db.events, eventCore old = eventCore event

/-- A handler keeps events however it ends. -/
def Keeps (settings : Settings) (db : Database) (result : Except Failure Outcome) : Prop :=
  ∀ outcome, result = .ok outcome → KeepsEvents settings db outcome

variable {env : Env} {settings : Settings} {db : Database} {ws : UUID}

/-- Discarding and restoring write back an event that carries the same. -/
theorem Handles.keeps {result : Except Failure Outcome} (h : Handles env settings db result) :
    Keeps settings db result := by
  intro outcome hok
  refine ⟨h.publishes outcome hok, ?_⟩
  intro event hwrite
  obtain ⟨old, hold, _, _, rfl⟩ := h.writes outcome hok _ hwrite
  exact ⟨old, hold, rfl⟩

/-- Any request to the API keeps the events. -/
theorem keepsEvents_handle (request : Request) :
    KeepsEvents settings db (handle env settings request db) := by
  have hkeeps := (handles_request env settings db request).keeps
  show KeepsEvents settings db (Outcome.ofHandler _)
  cases hresult : getWorkspaceMembership db request.caller request.workspaceId >>= fun membership =>
      requireWorkspaceRole request.operation.minimumRole membership >>= fun membership =>
        request.operation.run env settings db membership.workspaceId with
  | error failure =>
      refine ⟨?_, fun _ h => by cases h⟩
      intro m hm
      cases hm
  | ok outcome => exact hkeeps outcome hresult

end WebhookRelay.Api
