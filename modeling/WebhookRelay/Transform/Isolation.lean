import Mathlib.Data.List.TakeWhile
import WebhookRelay.Foundation.Rows
import WebhookRelay.Transform.Consumer

/-!
# Routes apart from one another

What the loop over the routes sends: the messages of the routes up to the
first send that raises. A filter that errs and a pipeline that raises cost a
route its own message only.
-/

namespace WebhookRelay.Transform

open Foundation

variable {rt : Runtime} {settings : Settings} {event : Event} {send : UUID → Except Exc Unit}

/-- The message of a route, if its filter matches and its pipeline succeeds. -/
def routeMessage (rt : Runtime) (settings : Settings) (event : Event) (route : Route) :
    Option KafkaMessage :=
  if matchesEvent rt route event then
    match routeBody rt route event.requestBody with
    | .ok body => some (transformedMessage settings event route body)
    | .error _ => none
  else none

/-- The route comes to its send, and the send raises. -/
def raises (rt : Runtime) (settings : Settings) (event : Event) (send : UUID → Except Exc Unit)
    (route : Route) : Bool :=
  (routeMessage rt settings event route).isSome &&
    match send route.id with
    | .ok _ => false
    | .error _ => true

theorem routeMessage_eq_none {route : Route} (h : ¬ Delivers rt event route) :
    routeMessage rt settings event route = none := by
  unfold routeMessage
  split
  · rename_i hmatch
    cases hbody : routeBody rt route event.requestBody with
    | error e => rfl
    | ok body => exact absurd ⟨hmatch, body, hbody⟩ h
  · rfl

theorem routeMessage_eq_some {route : Route} {body : Json}
    (hmatch : matchesEvent rt route event = true)
    (hbody : routeBody rt route event.requestBody = .ok body) :
    routeMessage rt settings event route = some (transformedMessage settings event route body) := by
  unfold routeMessage
  rw [if_pos hmatch, hbody]

theorem raises_eq_false_iff {route : Route} :
    raises rt settings event send route = false ↔
      (Delivers rt event route → send route.id = .ok ()) := by
  unfold raises
  by_cases hdelivers : Delivers rt event route
  · obtain ⟨hmatch, body, hbody⟩ := hdelivers
    rw [routeMessage_eq_some hmatch hbody]
    have hdelivers : Delivers rt event route := ⟨hmatch, body, hbody⟩
    cases send route.id with
    | ok _ => simp
    | error exc => simp [hdelivers]
  · rw [routeMessage_eq_none hdelivers]
    simp [hdelivers]

/-- The loop sends the message of every route before the first that raises,
and none from there on. -/
theorem dispatchRoutes_sent (routes : List Route) :
    (dispatchRoutes rt settings event send routes).1 =
      (routes.takeWhile (fun r => !raises rt settings event send r)).filterMap
        (routeMessage rt settings event) := by
  induction routes with
  | nil => rfl
  | cons first rest ih =>
      rw [dispatchRoutes]
      rcases dispatchRoute_cases rt settings event first (send first.id) with
        ⟨hnot, heq⟩ | ⟨⟨hmatch, _⟩, body, hbody, ⟨hsend, heq⟩ | ⟨exc, hsend, heq⟩⟩
      · have hraises : raises rt settings event send first = false :=
          raises_eq_false_iff.mpr (fun h => absurd h hnot)
        rw [heq, List.takeWhile_cons_of_pos (by rw [hraises]; rfl), List.filterMap_cons,
          routeMessage_eq_none hnot, ← ih]
        rfl
      · have hraises : raises rt settings event send first = false :=
          raises_eq_false_iff.mpr (fun _ => hsend)
        rw [heq, List.takeWhile_cons_of_pos (by rw [hraises]; rfl), List.filterMap_cons,
          routeMessage_eq_some hmatch hbody, ← ih]
        rfl
      · have hraises : raises rt settings event send first = true := by
          unfold raises
          rw [routeMessage_eq_some hmatch hbody, hsend]
          rfl
        rw [heq, List.takeWhile_cons_of_neg (by rw [hraises]; decide)]
        rfl

/-! ## The messages of one route -/

/-- What is sent to a route: its key is the route's. -/
def messagesFor (settings : Settings) (route : Route) (sent : List KafkaMessage) :
    List KafkaMessage :=
  sent.filter (fun m => m.topic = settings.kafkaTopicTransformedEvents ∧ m.key = route.id.str)

theorem messagesFor_filterMap (route : Route) (routes : List Route) :
    messagesFor settings route (routes.filterMap (routeMessage rt settings event)) =
      (routes.filter (fun r => r.id = route.id)).filterMap (routeMessage rt settings event) := by
  unfold messagesFor
  induction routes with
  | nil => rfl
  | cons first rest ih =>
      rw [List.filterMap_cons, List.filter_cons]
      cases hmessage : routeMessage rt settings event first with
      | none =>
          dsimp only
          rw [ih]
          split
          · rw [List.filterMap_cons, hmessage]
          · rfl
      | some m =>
          have hkey : m.topic = settings.kafkaTopicTransformedEvents ∧ m.key = first.id.str := by
            unfold routeMessage at hmessage
            split at hmessage
            · split at hmessage
              · obtain rfl := Option.some.inj hmessage
                exact ⟨rfl, rfl⟩
              · cases hmessage
            · cases hmessage
          have hsame : (m.topic = settings.kafkaTopicTransformedEvents ∧ m.key = route.id.str) ↔
              first.id = route.id := by
            rw [hkey.2, and_iff_right hkey.1]
            exact UUID.str_injective.eq_iff
          dsimp only
          rw [List.filter_cons, ih]
          by_cases hid : first.id = route.id
          · rw [if_pos (decide_eq_true (hsame.mpr hid)), if_pos (decide_eq_true hid),
              List.filterMap_cons, hmessage]
          · rw [if_neg (by simpa using mt hsame.mp hid), if_neg (by simpa using hid)]

/-- An element that a list has once is reached when all before it pass. -/
theorem mem_takeWhile_iff {α : Type} {p : α → Bool} {a : α} {l : List α} (nodup : l.Nodup)
    (ha : a ∈ l) (hp : p a = true) :
    a ∈ l.takeWhile p ↔ ∀ before after, l = before ++ a :: after → ∀ b ∈ before, p b = true := by
  constructor
  · rintro hmem before after rfl b hb
    have hnot : a ∉ before := by
      intro hbefore
      exact (List.nodup_append.mp nodup).2.2 a hbefore a List.mem_cons_self rfl
    by_contra hfail
    have hshort : ¬ ∀ b ∈ before, p b = true := fun hall => hfail (hall b hb)
    have hcut : (before.takeWhile p).length ≠ before.length := by
      intro hlength
      have hall := List.takeWhile_eq_self_iff.mp ((List.takeWhile_prefix p).eq_of_length hlength)
      exact hshort hall
    rw [List.takeWhile_append, if_neg hcut] at hmem
    exact hnot ((List.takeWhile_prefix p).subset hmem)
  · intro h
    obtain ⟨before, after, rfl⟩ := List.append_of_mem ha
    have hall := h before after rfl
    rw [List.takeWhile_append_of_pos hall, List.takeWhile_cons_of_pos hp]
    exact List.mem_append_right _ List.mem_cons_self

theorem messagesFor_dispatchRoutes {routes : List Route} (nodup : (routes.map Route.id).Nodup)
    {route : Route}
    (hroute : route ∈ routes) {body : Json} (hmatch : matchesEvent rt route event = true)
    (hbody : routeBody rt route event.requestBody = .ok body) :
    messagesFor settings route (dispatchRoutes rt settings event send routes).1 =
        [transformedMessage settings event route body] ↔
      route ∈ routes.takeWhile (fun r => !raises rt settings event send r) := by
  have hwithin : ∀ r ∈ routes.takeWhile (fun r => !raises rt settings event send r),
      r.id = route.id → r = route :=
    fun r hr hid => Rows.eq_of_key_eq nodup ((List.takeWhile_prefix _).subset hr) hroute hid
  rw [dispatchRoutes_sent, messagesFor_filterMap]
  by_cases hreached : route ∈ routes.takeWhile (fun r => !raises rt settings event send r)
  · refine iff_of_true ?_ hreached
    have hone : (routes.takeWhile (fun r => !raises rt settings event send r)).filter
        (fun r => r.id = route.id) = [route] := by
      apply Rows.eq_singleton_of_nodup
      · exact ((Rows.nodup_of_map nodup).sublist (List.takeWhile_prefix _).sublist).filter _
      · exact List.mem_filter.mpr ⟨hreached, decide_eq_true rfl⟩
      · intro r hr
        obtain ⟨hr, hid⟩ := List.mem_filter.mp hr
        exact hwithin r hr (of_decide_eq_true hid)
    rw [hone, List.filterMap_cons, routeMessage_eq_some hmatch hbody]
    rfl
  · refine iff_of_false ?_ hreached
    have hnone : (routes.takeWhile (fun r => !raises rt settings event send r)).filter
        (fun r => r.id = route.id) = [] := by
      apply List.filter_eq_nil_iff.mpr
      intro r hr hid
      exact hreached (hwithin r hr (of_decide_eq_true hid) ▸ hr)
    rw [hnone]
    simp

/-- A route that is owed a message, whose pipeline succeeds and whose send
would succeed, is sent its one message exactly when no route before it in the
list comes to a send that raises. -/
theorem sent_once_iff {data : RawMessage} {ans : EventAnswers} {route : Route} {body : Json}
    (owed : Owed rt data ans event route) (hread : ans.eventRead = .ok ())
    (hroutes : ans.routesRead = .ok ())
    (hbody : routeBody rt route event.requestBody = .ok body) (hsend : ans.send route.id = .ok ()) :
    messagesFor settings route (handleMessage rt settings data ans) =
        [transformedMessage settings event route body] ↔
      ∀ before after, activeRoutes route.endpointId ans.routes = before ++ route :: after →
        ∀ r ∈ before, Delivers rt event r → ans.send r.id = .ok () := by
  obtain ⟨hwf, ⟨id, hid, hfind⟩, hendpoint, hroute, hmatch⟩ := owed
  have nodup : ((activeRoutes route.endpointId ans.routes).map Route.id).Nodup :=
    ans.routes_nodup.sublist (List.filter_sublist.map _)
  have hhandled : handleMessage rt settings data ans =
      (dispatchRoutes rt settings event ans.send (activeRoutes route.endpointId ans.routes)).1 := by
    unfold handleMessage processEvent
    rw [if_pos hwf, hid]
    simp only [hread, hfind, hendpoint, hroutes]
  have hown : (!raises rt settings event ans.send route) = true := by
    rw [raises_eq_false_iff.mpr (fun _ => hsend)]
    rfl
  have hreached := mem_takeWhile_iff (p := fun r => !raises rt settings event ans.send r)
    (Rows.nodup_of_map nodup) hroute hown
  rw [hhandled, messagesFor_dispatchRoutes nodup hroute hmatch hbody, hreached]
  simp only [Bool.not_eq_true', raises_eq_false_iff]

/-! ## Two routes -/

def plainRoute : Route where
  id := 7
  endpointId := default
  name := "plain"
  url := "https://example.com"

def sendExcept (failing : UUID) (id : UUID) : Except Exc Unit :=
  if id = failing then .error ⟨"KafkaTimeoutError", ""⟩ else .ok ()

/-- The route before `plainRoute` has a send that raises. -/
def answersAfter (first : Route) (hne : first.id ≠ plainRoute.id) : EventAnswers where
  events := [order]
  routes := [first, plainRoute]
  routes_nodup := by simpa using hne
  send := sendExcept first.id

theorem send_plainRoute {first : Route} (hne : first.id ≠ plainRoute.id) :
    (answersAfter first hne).send plainRoute.id = .ok () :=
  if_neg (Ne.symm hne)

/-- The pipeline of `lengthRoute` raises, so that its send is never made. -/
def isolatedAnswers : EventAnswers := answersAfter lengthRoute (by decide)

theorem plainRoute_sent_once :
    messagesFor {} plainRoute (handleMessage lengthRuntime {} orderMessage isolatedAnswers) =
      [transformedMessage {} order plainRoute order.requestBody] := by
  have howed : Owed lengthRuntime orderMessage isolatedAnswers order plainRoute :=
    owed_order rfl (List.mem_cons_of_mem _ List.mem_cons_self) rfl rfl rfl
  refine (sent_once_iff howed rfl rfl rfl (send_plainRoute (by decide))).mpr ?_
  intro before after hsplit r hr hdelivers
  have hmem : r ∈ isolatedAnswers.routes := by
    refine (List.mem_filter.mp (?_ : r ∈ activeRoutes plainRoute.endpointId _)).1
    rw [hsplit]
    exact List.mem_append_left _ hr
  rcases List.mem_cons.mp hmem with rfl | hmem
  · obtain ⟨_, body, hbody⟩ := hdelivers
    exact absurd hbody (routeBody_lengthRoute_ne_ok body)
  · obtain rfl := List.mem_singleton.mp hmem
    exact send_plainRoute (by decide)

def firstRoute : Route := { plainRoute with id := 6, name := "first" }

def blockedAnswers : EventAnswers := answersAfter firstRoute (by decide)

/-- The send of the route before it raises, and it is sent nothing. -/
theorem plainRoute_unsent :
    ¬ ∀ (rt : Runtime) (settings : Settings) (data : RawMessage) (ans : EventAnswers)
      (event : Event)
      (route : Route) (body : Json), Owed rt data ans event route → ans.eventRead = .ok () →
        ans.routesRead = .ok () → routeBody rt route event.requestBody = .ok body →
          ans.send route.id = .ok () →
            messagesFor settings route (handleMessage rt settings data ans) =
              [transformedMessage settings event route body] := by
  intro h
  have howed : Owed lengthRuntime orderMessage blockedAnswers order plainRoute :=
    owed_order rfl (List.mem_cons_of_mem _ List.mem_cons_self) rfl rfl rfl
  have hsent := h lengthRuntime {} orderMessage blockedAnswers order plainRoute _ howed rfl rfl rfl
    (send_plainRoute (by decide))
  have hnone : (messagesFor {} plainRoute
      (handleMessage lengthRuntime {} orderMessage blockedAnswers)).length = 0 := by
    decide +kernel
  rw [hsent] at hnone
  cases hnone

end WebhookRelay.Transform
