import WebhookRelay.Core.Models

/-!
# Delivering one event to one route

`app/delivery/worker.py`. A call of `_deliver_with_retry` asks the circuit
breaker, the route limiter and the destination limiter, sends one request,
notes the attempt and may call itself again. `deliverCall` is one call up to
the recursion, as a function of everything it was answered; `deliver` chains
the calls. `admitted`, `requested`, `conclude` and `bury` are the stretches of
the body between two of its exits.
-/

namespace WebhookRelay.Delivery

/-- The `route` argument; `none` is an absent key, for `headers` and
`rate_limit_rpm` also the value `None`. -/
structure RouteDict where
  id : UUID
  url : String
  method : Option String := none
  headers : Option Headers := none
  timeoutMs : Option ℤ := none
  maxRetries : Option ℤ := none
  retryBackoffMs : Option ℤ := none
  rateLimitRpm : Option ℤ := none

structure HttpRequest where
  method : String
  url : String
  body : Json
  headers : Headers
  timeout : Time

/-- How the `try` block around the request ends. -/
inductive HttpOutcome where
  | response (status : ℕ) (text : String)
  | timeout (message : String)
  | connectError (message : String)
  | raised (exc : Exc)

namespace HttpOutcome

def status : HttpOutcome → Option ℕ
  | response status _ => some status
  | _ => none

def text : HttpOutcome → Option String
  | response _ text => some text
  | _ => none

def error : HttpOutcome → Option String
  | response _ _ => none
  | timeout message => some ("timeout: " ++ message)
  | connectError message => some ("connection_error: " ++ message)
  | raised exc => some exc.text

def isSuccess (o : HttpOutcome) : Bool :=
  match o.status with
  | some s => 200 ≤ s && s < 300
  | none => false

def isClientError (o : HttpOutcome) : Bool :=
  match o.status with
  | some s => 400 ≤ s && s < 500
  | none => false

/-- `error or (response_status and response_status >= 500)`. -/
def isRetryable (o : HttpOutcome) : Bool :=
  match o.status with
  | some s => 500 ≤ s
  | none => true

end HttpOutcome

/-- `send_and_wait` on the dead-letter topic. `KafkaError` is a
`RuntimeError`, which the call swallows. -/
inductive DeadLetterAnswer where
  | noProducer
  | acked
  | runtimeError (exc : Exc)
  | raised (exc : Exc)

/-- Everything one call is answered. The answers to questions it does not
come to ask are not used. -/
structure CallAnswers where
  isOpen : Except Exc Bool := .ok false
  routeAllows : Except Exc Bool := .ok true
  destAllows : Except Exc Bool := .ok true
  urlCheck : Except Exc Unit := .ok ()
  http : HttpOutcome := .response 200 ""
  durationMs : ℤ := 0
  attemptId : UUID := default
  attemptedAt : Time := 0
  commit : Except Exc Unit := .ok ()
  report : Except Exc Unit := .ok ()
  deadLetter : DeadLetterAnswer := .acked
  jitter : ℚ := 0

/-- What a call does to the outside, in order. -/
inductive Effect where
  | request (request : HttpRequest) (outcome : HttpOutcome)
  | attempt (row : DeliveryAttempt)
  | recordSuccess
  | recordFailure
  | sleep (seconds : Time)
  | deadLetter (message : KafkaMessage)

/-- How a call ends: it returns, raises, or awaits itself. -/
inductive Next where
  | returned
  | raised (exc : Exc)
  | again (attempt rateLimitWaits : ℕ)

def maxRateLimitWaits : ℕ := 5

section Call

variable (settings : Settings) (eventId : UUID) (route : RouteDict) (body : Json)

def maxRetries : ℤ := route.maxRetries.getD settings.maxDeliveryAttempts

def backoffMs : ℤ := route.retryBackoffMs.getD settings.retryBackoffMs

def timeoutMs : ℤ := route.timeoutMs.getD settings.deliveryTimeoutMs

def request : HttpRequest where
  method := route.method.getD "POST"
  url := route.url
  body := body
  headers := route.headers.getD []
  timeout := timeoutMs settings route / 1000

def attemptRow (attempt : ℕ) (ans : CallAnswers) (outcome : HttpOutcome) : DeliveryAttempt where
  id := ans.attemptId
  eventId := eventId
  routeId := route.id
  attemptNumber := attempt
  requestUrl := route.url
  requestBody := body
  responseStatus := outcome.status
  responseBody := outcome.text
  error := outcome.error
  durationMs := ans.durationMs
  attemptedAt := ans.attemptedAt

/-- The row of an attempt that sent nothing. -/
def skippedRow (attempt : ℕ) (ans : CallAnswers) (error : String) : DeliveryAttempt where
  id := ans.attemptId
  eventId := eventId
  routeId := route.id
  attemptNumber := attempt
  requestUrl := route.url
  requestBody := body
  error := some error
  attemptedAt := ans.attemptedAt

/-- `db.add(row); await db.commit()`, then the rest of the call. -/
def recorded (ans : CallAnswers) (row : DeliveryAttempt) (rest : List Effect × Next) :
    List Effect × Next :=
  match ans.commit with
  | .error exc => ([], .raised exc)
  | .ok _ => (.attempt row :: rest.1, rest.2)

/-- `await cb.record_success()` or `record_failure()`, then the rest. -/
def reported (ans : CallAnswers) (report : Effect) (rest : List Effect × Next) :
    List Effect × Next :=
  match ans.report with
  | .error exc => ([], .raised exc)
  | .ok _ => (report :: rest.1, rest.2)

def deadLetterMessage (outcome : HttpOutcome) : KafkaMessage where
  topic := settings.kafkaTopicDeadLetter
  key := eventId.str
  value := [
    ("event_id", .str eventId.str),
    ("route_id", .str route.id.str),
    ("url", .str route.url),
    ("body", body),
    ("last_error", outcome.error.elim .null .str),
    ("last_response_status", outcome.status.elim .null (fun s => .int s)),
    ("attempts", .int (maxRetries settings route))]

def bury (ans : CallAnswers) (outcome : HttpOutcome) : List Effect × Next :=
  match ans.deadLetter with
  | .noProducer => ([], .returned)
  | .acked => ([.deadLetter (deadLetterMessage settings eventId route body outcome)], .returned)
  | .runtimeError _ => ([], .returned)
  | .raised exc => ([], .raised exc)

/-- The exponential delay before `attempt + 1`, with up to half of it added. -/
def backoff (attempt : ℕ) (jitter : ℚ) : Time :=
  let delay : ℚ := backoffMs settings route * 2 ^ attempt / 1000
  delay + jitter * (delay / 2)

/-- After the attempt is noted. -/
def conclude (attempt : ℕ) (ans : CallAnswers) (outcome : HttpOutcome) : List Effect × Next :=
  if outcome.isSuccess then reported ans .recordSuccess ([], .returned)
  else
    reported ans .recordFailure
      (if outcome.isClientError then ([], .returned)
      else if outcome.isRetryable then
        if (attempt : ℤ) + 1 < maxRetries settings route then
          ([.sleep (backoff settings route attempt ans.jitter)], .again (attempt + 1) 0)
        else bury settings eventId route body ans outcome
      else ([], .returned))

/-- The request itself, once all three questions are answered. -/
def requested (attempt : ℕ) (ans : CallAnswers) : List Effect × Next :=
  match ans.urlCheck with
  | .error exc =>
      recorded ans (attemptRow eventId route body attempt ans (.raised exc))
        (conclude settings eventId route body attempt ans (.raised exc))
  | .ok _ =>
      let rest := recorded ans (attemptRow eventId route body attempt ans ans.http)
        (conclude settings eventId route body attempt ans ans.http)
      (.request (request settings route body) ans.http :: rest.1, rest.2)

/-- Past the breaker: the two rate limiters. -/
def admitted (attempt waits : ℕ) (ans : CallAnswers) : List Effect × Next :=
  match if route.rateLimitRpm.isSome then ans.routeAllows else .ok true with
  | .error exc => ([], .raised exc)
  | .ok false =>
      recorded ans (skippedRow eventId route body attempt ans "route_rate_limited") ([], .returned)
  | .ok true =>
      match ans.destAllows with
      | .error exc => ([], .raised exc)
      | .ok false =>
          if maxRateLimitWaits ≤ waits then
            recorded ans (skippedRow eventId route body attempt ans "rate_limited_abandoned")
              ([], .returned)
          else ([.sleep 1], .again attempt (waits + 1))
      | .ok true => requested settings eventId route body attempt ans

/-- `_deliver_with_retry`, up to its recursive call. -/
def deliverCall (attempt waits : ℕ) (ans : CallAnswers) : List Effect × Next :=
  match ans.isOpen with
  | .error exc => ([], .raised exc)
  | .ok true =>
      recorded ans (skippedRow eventId route body attempt ans "circuit_breaker_open")
        (if (attempt : ℤ) + 1 < maxRetries settings route then
          ([.sleep settings.circuitBreakerCooldownS], .again (attempt + 1) 0)
        else ([], .returned))
  | .ok false => admitted settings eventId route body attempt waits ans

/-- The whole delivery. `answers` lists what each call in turn is answered;
`none` says the list is not as long as the recursion goes. -/
def deliver : ℕ → ℕ → List CallAnswers → Option (List Effect × Except Exc Unit)
  | _, _, [] => none
  | attempt, waits, ans :: rest =>
      match deliverCall settings eventId route body attempt waits ans with
      | (effects, .again attempt waits) =>
          (deliver attempt waits rest).map (fun r => (effects ++ r.1, r.2))
      | (effects, .returned) => if rest.isEmpty then some (effects, .ok ()) else none
      | (effects, .raised exc) => if rest.isEmpty then some (effects, .error exc) else none

/-! ## The requests a call sends -/

def requestsOf (effects : List Effect) : List HttpRequest :=
  effects.filterMap (fun effect => match effect with
    | .request request _ => some request
    | _ => none)

variable {settings eventId route body} {attempt waits : ℕ} {ans : CallAnswers}

/-- An observation that rows do not add to is blank if it is blank of the rest. -/
theorem filterMap_recorded {β : Type} {pick : Effect → Option β} {row : DeliveryAttempt}
    {rest : List Effect × Next} (hrow : pick (.attempt row) = none)
    (h : rest.1.filterMap pick = []) : (recorded ans row rest).1.filterMap pick = [] := by
  unfold recorded
  split
  · rfl
  · show (Effect.attempt row :: rest.1).filterMap pick = []
    rw [List.filterMap_cons_none hrow, h]

theorem filterMap_reported {β : Type} {pick : Effect → Option β} {report : Effect}
    {rest : List Effect × Next} (hreport : pick report = none) (h : rest.1.filterMap pick = []) :
    (reported ans report rest).1.filterMap pick = [] := by
  unfold reported
  split
  · rfl
  · show (report :: rest.1).filterMap pick = []
    rw [List.filterMap_cons_none hreport, h]

theorem requestsOf_recorded {row : DeliveryAttempt} {rest : List Effect × Next}
    (h : requestsOf rest.1 = []) : requestsOf (recorded ans row rest).1 = [] :=
  filterMap_recorded rfl h

theorem requestsOf_conclude {outcome : HttpOutcome} :
    requestsOf (conclude settings eventId route body attempt ans outcome).1 = [] := by
  unfold conclude reported bury
  repeat' split
  all_goals rfl

/-- A call sends at most one request, always the same. -/
theorem requestsOf_requested :
    ∀ r ∈ requestsOf (requested settings eventId route body attempt ans).1,
    r = request settings route body := by
  unfold requested
  intro r hr
  split at hr
  · rw [requestsOf_recorded requestsOf_conclude] at hr
    cases hr
  · rcases List.mem_cons.mp hr with hr | hr
    · exact hr
    · change r ∈ requestsOf (recorded ans _ _).1 at hr
      rw [requestsOf_recorded requestsOf_conclude] at hr
      cases hr

theorem requestsOf_deliverCall :
    ∀ r ∈ requestsOf (deliverCall settings eventId route body attempt waits ans).1,
      r = request settings route body := by
  intro r hr
  unfold deliverCall at hr
  split at hr
  · cases hr
  · rw [requestsOf_recorded] at hr
    · cases hr
    · split <;> rfl
  · unfold admitted at hr
    split at hr
    · cases hr
    · rw [requestsOf_recorded rfl] at hr
      cases hr
    · split at hr
      · cases hr
      · split at hr
        · rw [requestsOf_recorded rfl] at hr
          cases hr
        · cases hr
      · exact requestsOf_requested r hr

end Call

end WebhookRelay.Delivery
