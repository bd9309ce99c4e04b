import WebhookRelay.Gateway.Idempotency
import WebhookRelay.Limits.SlidingWindow

/-!
# Forged requests and the rate limit of an endpoint

Requests to one endpoint, one after the other. The rate limit is charged
before the signature is tested, so requests that nobody signed take up the
room of those that somebody did: `unharmed_iff`.
-/

namespace WebhookRelay.Gateway

open Foundation Limits

/-- A request, when it is made, and the identifiers drawn for it. -/
structure Arrival where
  now : Time
  member : UUID
  eventId : UUID
  request : WebhookRequest

/-- `rl:ingress:ep:{id}`, and the idempotency keys. -/
structure IngressKeys where
  window : WindowKey := .empty
  reservations : String → Cell Time Unit := fun _ => .empty

inductive Answer where
  | accepted (event : Event)
  | duplicate
  | rejected (rejection : Rejection)

namespace Answer

def status : Answer → ℕ
  | accepted _ | duplicate => 202
  | rejected (.http status _) => status
  | rejected (.raised _) => 500

end Answer

section Receive

variable (rt : Runtime) (settings : Settings) (endpoint : Endpoint)

/-- `endpoint.rate_limit_rps * 60`. -/
def ingressRpm : Option ℤ := endpoint.rateLimitRps.map (fun rps => rps * 60)

/-- `allow_request`, for an endpoint with a rate limit. -/
def askLimiter (a : Arrival) (window : WindowKey) : Bool × WindowKey :=
  match endpoint.rateLimitRps with
  | none => (true, window)
  | some _ => allowRequest settings (ingressRpm endpoint) a.member a.now a.now window

/-- The reservation and the event of a request that has passed the checks. -/
def ingest (a : Arrival) (payload : Json) (reservations : String → Cell Time Unit) :
    Answer × (String → Cell Time Unit) :=
  let event := newEvent a.eventId a.now endpoint payload a.request
  match reservedKey a.request with
  | none => (.accepted event, reservations)
  | some key =>
      if settings.idempotencyTtlS ≤ 0 then
        (.rejected (.raised ⟨"ResponseError", "invalid expire time in 'set' command"⟩),
          reservations)
      else
        let (won, cell) := (reservations (dedupKey endpoint.id key)).setnxEx a.now ()
          (a.now + settings.idempotencyTtlS)
        (if won then .accepted event else .duplicate,
          Function.update reservations (dedupKey endpoint.id key) cell)

/-- `receive_webhook`, run with nothing in between. The limiter is asked once
the endpoint has been found and the sender's address passed. -/
def receive (keys : IngressKeys) (a : Arrival) : Answer × IngressKeys :=
  match locate rt settings [endpoint] a.request with
  | .error rejection => (.rejected rejection, keys)
  | .ok _ =>
      let (allowed, window) := askLimiter settings endpoint a keys.window
      match check rt settings [endpoint] (.ok allowed) a.request with
      | .error rejection => (.rejected rejection, { keys with window := window })
      | .ok (_, payload) =>
          let (answer, reservations) := ingest settings endpoint a payload keys.reservations
          (answer, ⟨window, reservations⟩)

def keysAfter (arrivals : List Arrival) : IngressKeys :=
  arrivals.foldl (fun keys a => (receive rt settings endpoint keys a).2) {}

/-- The answer to a request that comes after others. -/
def answerAfter (arrivals : List Arrival) (a : Arrival) : Answer :=
  (receive rt settings endpoint (keysAfter rt settings endpoint arrivals) a).1

/-- The header is the signature of the raw body. -/
def CorrectlySigned (request : WebhookRequest) : Prop :=
  request.xHubSignature256 =
    some (signaturePrefix ++ rt.hmacSha256 endpoint.hmacSecret request.chunks.flatten)

/-- The request gets as far as the limiter. -/
def located (request : WebhookRequest) : Bool := (locate rt settings [endpoint] request).isOk

def Arrival.call (a : Arrival) : Call := ⟨a.member, a.now⟩

/-- The calls of the limiter. -/
def asked (arrivals : List Arrival) : List Call :=
  if endpoint.rateLimitRps.isNone then []
  else (arrivals.filter (fun a => located rt settings endpoint a.request)).map Arrival.call

end Receive

/-- A request of the sequence, or one that was inserted. -/
structure Visit where
  arrival : Arrival
  inserted : Bool

def everyone (visits : List Visit) : List Arrival := visits.map Visit.arrival

def original (visits : List Visit) : List Arrival :=
  (visits.filter (fun v => !v.inserted)).map Visit.arrival

/-- `P` holds of each request and those before it. -/
def AtEach (P : List Visit → Visit → Prop) (visits : List Visit) : Prop :=
  ∀ before v after, visits = before ++ v :: after → P before v

section Statements

variable (rt : Runtime) (settings : Settings) (endpoint : Endpoint)

/-- The correctly signed requests of the sequence are answered as if nothing
had been inserted. -/
def Unharmed : List Visit → Prop :=
  AtEach (fun before v => v.inserted = false → CorrectlySigned rt endpoint v.arrival.request →
    answerAfter rt settings endpoint (everyone before) v.arrival =
      answerAfter rt settings endpoint (original before) v.arrival)

/-- Where such a request would find room in the window of the limiter, it still
does. -/
def KeepsRoom : List Visit → Prop :=
  AtEach (fun before v => v.inserted = false → CorrectlySigned rt endpoint v.arrival.request →
    located rt settings endpoint v.arrival.request = true →
    HasRoom settings (ingressRpm endpoint) (asked rt settings endpoint (original before))
      v.arrival.now →
    HasRoom settings (ingressRpm endpoint) (asked rt settings endpoint (everyone before))
      v.arrival.now)

end Statements

theorem atEach_snoc {P : List Visit → Visit → Prop} {visits : List Visit} {v : Visit} :
    AtEach P (visits ++ [v]) ↔ AtEach P visits ∧ P visits v := by
  constructor
  · intro h
    refine ⟨?_, h visits v [] rfl⟩
    rintro before w after rfl
    exact h before w (after ++ [v]) (by simp)
  · rintro ⟨hbefore, hlast⟩ before w after heq
    -- either it is the last one, or something follows it
    rcases List.eq_nil_or_concat after with rfl | ⟨after, x, rfl⟩
    · obtain ⟨rfl, hw⟩ := List.append_inj' heq rfl
      cases hw
      exact hlast
    · have hgroup : visits ++ [v] = (before ++ w :: after) ++ [x] := by simpa using heq
      obtain ⟨hvisits, _⟩ := List.append_inj' hgroup rfl
      exact hbefore before w after hvisits

/-! ## One request -/

variable {rt : Runtime} {settings : Settings} {endpoint : Endpoint} {a : Arrival}

theorem locate_of_located (h : located rt settings endpoint a.request = true) :
    locate rt settings [endpoint] a.request = .ok (a.request.chunks.flatten, endpoint) := by
  unfold located at h
  cases hlocate : locate rt settings [endpoint] a.request with
  | error rejection =>
      rw [hlocate] at h
      cases h
  | ok found =>
      obtain ⟨body, found⟩ := found
      obtain ⟨rfl, id, _, hfind⟩ := locate_eq_ok hlocate
      have hmem := List.mem_of_find?_eq_some hfind
      rw [List.mem_singleton] at hmem
      rw [hmem]

/-- A request that does not get to the limiter leaves no trace. -/
theorem receive_of_not_located (h : ¬ located rt settings endpoint a.request = true) :
    ∃ rejection, ∀ keys, receive rt settings endpoint keys a = (.rejected rejection, keys) := by
  unfold located at h
  cases hlocate : locate rt settings [endpoint] a.request with
  | error rejection =>
      refine ⟨rejection, ?_⟩
      intro keys
      unfold receive
      rw [hlocate]
  | ok found =>
      rw [hlocate] at h
      exact absurd rfl h

/-- What comes after the limiter. -/
def enter (rt : Runtime) (settings : Settings) (endpoint : Endpoint) (a : Arrival)
    (reservations : String → Cell Time Unit) : Answer × (String → Cell Time Unit) :=
  match checkSecret rt endpoint a.request.chunks.flatten a.request.xHubSignature256 >>= fun _ =>
    parsePayload rt endpoint a.request.chunks.flatten with
  | .error rejection => (.rejected rejection, reservations)
  | .ok (_, payload) => ingest settings endpoint a payload reservations

def overLimit : Answer := .rejected (.http 429 "endpoint rate limit exceeded")

theorem checkRate_askLimiter (window : WindowKey) :
    checkRate endpoint (.ok (askLimiter settings endpoint a window).1) =
      if (askLimiter settings endpoint a window).1 = true then .ok ()
      else .error (.http 429 "endpoint rate limit exceeded") := by
  unfold checkRate askLimiter
  cases endpoint.rateLimitRps with
  | none => rfl
  | some rps =>
      dsimp only
      split <;> simp_all

theorem receive_of_located (h : located rt settings endpoint a.request = true)
    (keys : IngressKeys) :
    receive rt settings endpoint keys a =
      if (askLimiter settings endpoint a keys.window).1 = true then
        ((enter rt settings endpoint a keys.reservations).1,
          ⟨(askLimiter settings endpoint a keys.window).2,
            (enter rt settings endpoint a keys.reservations).2⟩)
      else (overLimit, ⟨(askLimiter settings endpoint a keys.window).2, keys.reservations⟩) := by
  have hlocate := locate_of_located h
  have hcheck : check rt settings [endpoint]
      (.ok (askLimiter settings endpoint a keys.window).1) a.request =
        checkRate endpoint (.ok (askLimiter settings endpoint a keys.window).1) >>= fun _ =>
          checkSecret rt endpoint a.request.chunks.flatten a.request.xHubSignature256 >>= fun _ =>
            parsePayload rt endpoint a.request.chunks.flatten := by
    rw [check_eq, hlocate]
    rfl
  unfold receive
  rw [hlocate]
  dsimp only
  rw [hcheck, checkRate_askLimiter]
  by_cases hallowed : (askLimiter settings endpoint a keys.window).1 = true
  · rw [if_pos hallowed, if_pos hallowed]
    unfold enter
    dsimp only [bind, Except.bind]
    split <;> rfl
  · rw [if_neg hallowed, if_neg hallowed]
    rfl

theorem receive_of_admits (keys : IngressKeys)
    (h : located rt settings endpoint a.request = true)
    (hadmits : (askLimiter settings endpoint a keys.window).1 = true) :
    (receive rt settings endpoint keys a).1 = (enter rt settings endpoint a keys.reservations).1 ∧
      (receive rt settings endpoint keys a).2.reservations =
        (enter rt settings endpoint a keys.reservations).2 := by
  rw [receive_of_located h, if_pos hadmits]
  exact ⟨rfl, rfl⟩

theorem receive_of_denies (keys : IngressKeys)
    (h : located rt settings endpoint a.request = true)
    (hdenies : ¬ (askLimiter settings endpoint a keys.window).1 = true) :
    (receive rt settings endpoint keys a).1 = overLimit ∧
      (receive rt settings endpoint keys a).2.reservations = keys.reservations := by
  rw [receive_of_located h, if_neg hdenies]
  exact ⟨rfl, rfl⟩

/-- Without the signature nothing is reserved. -/
theorem enter_of_forged (hsecret : endpoint.hmacSecret ≠ "")
    (hforged : ¬ CorrectlySigned rt endpoint a.request) (reservations : String → Cell Time Unit) :
    (enter rt settings endpoint a reservations).2 = reservations := by
  unfold enter checkSecret
  rw [if_pos hsecret]
  cases hsign : checkSignature rt endpoint.hmacSecret a.request.chunks.flatten
      a.request.xHubSignature256 with
  | error rejection => rfl
  | ok _ => exact absurd (checkSignature_eq_ok hsign) hforged

theorem checkSecret_ne (body : Bytes) (header : Option String) (detail : String) :
    checkSecret rt endpoint body header ≠ .error (.http 429 detail) := by
  unfold checkSecret checkSignature
  dsimp only
  repeat' split
  all_goals simp

theorem parsePayload_ne (body : Bytes) (detail : String) :
    parsePayload rt endpoint body ≠ .error (.http 429 detail) := by
  unfold parsePayload
  split
  · simp
  · simp
  · rename_i payload _
    unfold checkSchema
    cases endpoint.requestBodySchema with
    | none => simp [bind, Except.bind, pure, Except.pure]
    | some schema =>
        dsimp only
        cases rt.validateSchema payload schema <;> simp [bind, Except.bind, pure, Except.pure]

theorem ingest_ne_overLimit (payload : Json) (reservations : String → Cell Time Unit) :
    (ingest settings endpoint a payload reservations).1 ≠ overLimit := by
  unfold ingest overLimit
  dsimp only
  repeat' split
  all_goals simp

/-- Nothing after the limiter answers as the limiter does. -/
theorem enter_ne_overLimit (reservations : String → Cell Time Unit) :
    (enter rt settings endpoint a reservations).1 ≠ overLimit := by
  unfold enter
  split
  · rename_i rejection herror
    intro hover
    have hrejection : rejection = .http 429 "endpoint rate limit exceeded" :=
      Answer.rejected.inj hover
    rw [hrejection] at herror
    cases hsecret : checkSecret rt endpoint a.request.chunks.flatten a.request.xHubSignature256 with
    | error rejection =>
        rw [hsecret] at herror
        cases herror
        exact checkSecret_ne _ _ _ hsecret
    | ok _ =>
        rw [hsecret] at herror
        exact parsePayload_ne _ _ herror
  · exact ingest_ne_overLimit _ _

/-! ## A sequence of requests -/

section Sequence

variable (rt settings endpoint)

theorem keysAfter_snoc (arrivals : List Arrival) (a : Arrival) :
    keysAfter rt settings endpoint (arrivals ++ [a]) =
      (receive rt settings endpoint (keysAfter rt settings endpoint arrivals) a).2 := by
  unfold keysAfter
  rw [List.foldl_append]
  rfl

/-- The limiter lets `a` through after these requests. -/
def Admits (arrivals : List Arrival) (a : Arrival) : Prop :=
  (askLimiter settings endpoint a (keysAfter rt settings endpoint arrivals).window).1 = true

end Sequence

/-- The window holds what the limiter was asked. -/
theorem window_keysAfter (hlimit : 1 ≤ limitOf settings (ingressRpm endpoint)) {rps : ℤ}
    (hrps : endpoint.rateLimitRps = some rps) (arrivals : List Arrival) :
    (keysAfter rt settings endpoint arrivals).window =
      keyAfter (asked rt settings endpoint arrivals) := by
  have hsome : ¬ endpoint.rateLimitRps.isNone = true := by simp [hrps]
  unfold asked
  rw [if_neg hsome]
  induction arrivals using List.reverseRecOn with
  | nil => rfl
  | append_singleton arrivals a ih =>
      rw [keysAfter_snoc, List.filter_append, List.map_append]
      -- the limiter adds the call to its window whether or not it allows it
      by_cases hlocated : located rt settings endpoint a.request = true
      · have hwindow : (askLimiter settings endpoint a
            (keysAfter rt settings endpoint arrivals).window).2 =
              (pipeline a.member a.now a.now
                (keysAfter rt settings endpoint arrivals).window).2 := by
          unfold askLimiter
          rw [hrps]
          dsimp only
          rw [allowRequest_of_pos hlimit]
        rw [receive_of_located hlocated]
        rw [List.filter_cons_of_pos (by simpa using hlocated), List.filter_nil, List.map_singleton]
        rw [keyAfter_snoc, ← ih]
        split <;> exact hwindow
      · obtain ⟨rejection, hrejected⟩ := receive_of_not_located hlocated
        rw [hrejected, List.filter_cons_of_neg (by simpa using hlocated), List.filter_nil,
          List.map_nil, List.append_nil]
        exact ih

/-- A request that gets to the limiter is let through if there is no limit or
room for it. -/
theorem admits_iff {arrivals : List Arrival}
    (htimed : Timed (asked rt settings endpoint arrivals ++ [a.call])) :
    Admits rt settings endpoint arrivals a ↔
      endpoint.rateLimitRps = none ∨
        HasRoom settings (ingressRpm endpoint) (asked rt settings endpoint arrivals) a.now := by
  unfold Admits askLimiter
  cases hrps : endpoint.rateLimitRps with
  | none => simp
  | some rps =>
      dsimp only
      by_cases hlimit : 1 ≤ limitOf settings (ingressRpm endpoint)
      · have hreply := congrArg Prod.fst (allowRequest_keyAfter hlimit htimed)
        rw [window_keysAfter hlimit hrps]
        refine Iff.trans ?_ (or_iff_right (by simp)).symm
        apply Iff.trans (Eq.congr_left hreply)
        exact decide_eq_true_iff
      · -- a limit that is not positive lets nobody through
        have hdenied : ¬ HasRoom settings (ingressRpm endpoint)
          (asked rt settings endpoint arrivals)
            a.now := by
          unfold HasRoom
          omega
        unfold allowRequest
        rw [if_pos (by omega)]
        simp [hdenied]

/-- On the same reservations a located request gets the same answer exactly when
the limiter gives it the same. -/
theorem receive_eq_iff (hlocated : located rt settings endpoint a.request = true)
    {keys keys' : IngressKeys} (hreservations : keys.reservations = keys'.reservations) :
    (receive rt settings endpoint keys a).1 = (receive rt settings endpoint keys' a).1 ↔
      ((askLimiter settings endpoint a keys.window).1 = true ↔
        (askLimiter settings endpoint a keys'.window).1 = true) := by
  have hne : (enter rt settings endpoint a keys'.reservations).1 ≠ overLimit :=
    enter_ne_overLimit keys'.reservations
  -- the four cases of the two replies
  by_cases hone : (askLimiter settings endpoint a keys.window).1 = true
  · rw [(receive_of_admits keys hlocated hone).1, hreservations]
    by_cases hother : (askLimiter settings endpoint a keys'.window).1 = true
    · rw [(receive_of_admits keys' hlocated hother).1]
      exact iff_of_true rfl ⟨fun _ => hother, fun _ => hone⟩
    · rw [(receive_of_denies keys' hlocated hother).1]
      exact iff_of_false hne (fun h => hother (h.mp hone))
  · rw [(receive_of_denies keys hlocated hone).1]
    by_cases hother : (askLimiter settings endpoint a keys'.window).1 = true
    · rw [(receive_of_admits keys' hlocated hother).1]
      exact iff_of_false hne.symm (fun h => hone (h.mpr hother))
    · rw [(receive_of_denies keys' hlocated hother).1]
      exact iff_of_true rfl ⟨fun h => absurd h hone, fun h => absurd h hother⟩

/-- What an answered request leaves reserved can be told from the answer. -/
theorem reservations_receive {keys keys' : IngressKeys}
    (hreservations : keys.reservations = keys'.reservations)
    (hanswer : (receive rt settings endpoint keys a).1 = (receive rt settings endpoint keys' a).1) :
    (receive rt settings endpoint keys a).2.reservations =
      (receive rt settings endpoint keys' a).2.reservations := by
  by_cases hlocated : located rt settings endpoint a.request = true
  · have hsame := (receive_eq_iff hlocated hreservations).mp hanswer
    by_cases hone : (askLimiter settings endpoint a keys.window).1 = true
    · rw [(receive_of_admits keys hlocated hone).2,
        (receive_of_admits keys' hlocated (hsame.mp hone)).2, hreservations]
    · rw [(receive_of_denies keys hlocated hone).2,
        (receive_of_denies keys' hlocated (fun h => hone (hsame.mpr h))).2, hreservations]
  · obtain ⟨rejection, hrejected⟩ := receive_of_not_located hlocated
    rw [hrejected, hrejected]
    exact hreservations

/-- A forged request leaves the reservations alone. -/
theorem reservations_of_forged (hsecret : endpoint.hmacSecret ≠ "")
    (hforged : ¬ CorrectlySigned rt endpoint a.request) (keys : IngressKeys) :
    (receive rt settings endpoint keys a).2.reservations = keys.reservations := by
  by_cases hlocated : located rt settings endpoint a.request = true
  · rw [receive_of_located hlocated]
    split
    · exact enter_of_forged hsecret hforged _
    · rfl
  · obtain ⟨rejection, hrejected⟩ := receive_of_not_located hlocated
    rw [hrejected]

/-! ## With and without the inserted requests -/

theorem everyone_snoc (visits : List Visit) (v : Visit) :
    everyone (visits ++ [v]) = everyone visits ++ [v.arrival] :=
  List.map_append ..

theorem original_snoc_of_inserted {v : Visit} (h : v.inserted = true) (visits : List Visit) :
    original (visits ++ [v]) = original visits := by
  simp [original, h]

theorem original_snoc {v : Visit} (h : v.inserted = false) (visits : List Visit) :
    original (visits ++ [v]) = original visits ++ [v.arrival] := by
  simp [original, h]

theorem original_sublist (visits : List Visit) : (original visits).Sublist (everyone visits) :=
  List.filter_sublist.map _

/-- Nothing is asked of the inserted requests. -/
theorem atEach_of_inserted {P : List Visit → Visit → Prop} {visits : List Visit}
    (h : ∀ v ∈ visits, v.inserted = true) :
    AtEach (fun before v => v.inserted = false → P before v) visits := by
  rintro before v after rfl hinserted
  have hv := h v (List.mem_append_right _ List.mem_cons_self)
  rw [hinserted] at hv
  cases hv

/-- As long as the signed requests are answered alike, Redis holds the same
reservations with and without the inserted ones. -/
theorem reservations_of_unharmed (hsecret : endpoint.hmacSecret ≠ "") {visits : List Visit}
    (hforged : ∀ v ∈ visits, v.inserted = true → ¬ CorrectlySigned rt endpoint v.arrival.request)
    (h : Unharmed rt settings endpoint visits) :
    (keysAfter rt settings endpoint (everyone visits)).reservations =
      (keysAfter rt settings endpoint (original visits)).reservations := by
  induction visits using List.reverseRecOn with
  | nil => rfl
  | append_singleton visits v ih =>
      obtain ⟨hbefore, hlast⟩ := atEach_snoc.mp h
      have hsame := ih (fun w hw => hforged w (List.mem_append_left _ hw)) hbefore
      have hv := hforged v (List.mem_append_right _ (List.mem_singleton_self v))
      rw [everyone_snoc, keysAfter_snoc]
      cases hinserted : v.inserted with
      | true =>
          rw [original_snoc_of_inserted hinserted, reservations_of_forged hsecret (hv hinserted)]
          exact hsame
      | false =>
          rw [original_snoc hinserted, keysAfter_snoc]
          -- a forged request of the sequence itself leaves them alone as well
          by_cases hsigned : CorrectlySigned rt endpoint v.arrival.request
          · exact reservations_receive hsame (hlast hinserted hsigned)
          · rw [reservations_of_forged hsecret hsigned, reservations_of_forged hsecret hsigned]
            exact hsame

/-- The limiter's calls are among those of the arrivals. -/
theorem asked_sublist {arrivals arrivals' : List Arrival} (h : arrivals.Sublist arrivals') :
    (asked rt settings endpoint arrivals).Sublist (asked rt settings endpoint arrivals') := by
  unfold asked
  split
  · exact List.Sublist.refl _
  · exact (h.filter _).map _

theorem asked_sublist_map (arrivals : List Arrival) :
    (asked rt settings endpoint arrivals).Sublist (arrivals.map Arrival.call) := by
  unfold asked
  split
  · exact List.nil_sublist _
  · exact List.filter_sublist.map _

theorem asked_of_none (h : endpoint.rateLimitRps = none) (arrivals : List Arrival) :
    asked rt settings endpoint arrivals = [] := by
  unfold asked
  rw [h]
  rfl

theorem hasRoom_of_sublist {calls calls' : List Call} (h : calls.Sublist calls') {maxRpm : Option ℤ}
    {now : Time} (hroom : HasRoom settings maxRpm calls' now) :
    HasRoom settings maxRpm calls now := by
  have hle : (recent now calls).length ≤ (recent now calls').length := (h.filter _).length_le
  unfold HasRoom at *
  omega

/-- With the same reservations, the last request is answered alike exactly if
it keeps its room. -/
theorem answer_eq_iff {visits : List Visit} {v : Visit}
    (htimed : Timed ((everyone (visits ++ [v])).map Arrival.call))
    (hreservations : (keysAfter rt settings endpoint (everyone visits)).reservations =
      (keysAfter rt settings endpoint (original visits)).reservations) :
    answerAfter rt settings endpoint (everyone visits) v.arrival =
        answerAfter rt settings endpoint (original visits) v.arrival ↔
      (located rt settings endpoint v.arrival.request = true →
        HasRoom settings (ingressRpm endpoint) (asked rt settings endpoint (original visits))
          v.arrival.now →
        HasRoom settings (ingressRpm endpoint) (asked rt settings endpoint (everyone visits))
          v.arrival.now) := by
  unfold answerAfter
  by_cases hlocated : located rt settings endpoint v.arrival.request = true
  · rw [everyone_snoc, List.map_append, List.map_singleton] at htimed
    have hfull : Timed (asked rt settings endpoint (everyone visits) ++ [v.arrival.call]) :=
      htimed.of_sublist ((asked_sublist_map _).append (List.Sublist.refl _))
    have hbase : Timed (asked rt settings endpoint (original visits) ++ [v.arrival.call]) :=
      hfull.of_sublist ((asked_sublist (original_sublist visits)).append (List.Sublist.refl _))
    have hadmits : Admits rt settings endpoint (everyone visits) v.arrival ↔ _ := admits_iff hfull
    have hadmits' : Admits rt settings endpoint (original visits) v.arrival ↔ _ := admits_iff hbase
    have hless : HasRoom settings (ingressRpm endpoint)
      (asked rt settings endpoint (everyone visits))
          v.arrival.now →
        HasRoom settings (ingressRpm endpoint) (asked rt settings endpoint (original visits))
          v.arrival.now :=
      hasRoom_of_sublist (asked_sublist (original_sublist visits))
    unfold Admits at hadmits hadmits'
    rw [receive_eq_iff hlocated hreservations, hadmits, hadmits']
    -- without a limit both sides hold
    by_cases hnone : endpoint.rateLimitRps = none
    · rw [asked_of_none hnone, asked_of_none hnone]
      exact iff_of_true Iff.rfl (fun _ h => h)
    · rw [or_iff_right hnone, or_iff_right hnone]
      exact ⟨fun h _ => h.mpr, fun h => ⟨hless, h hlocated⟩⟩
  · obtain ⟨rejection, hrejected⟩ := receive_of_not_located hlocated
    rw [hrejected, hrejected]
    exact iff_of_true rfl (fun h => absurd h hlocated)

/-- The correctly signed requests are answered as if nothing had been inserted
exactly if the inserted requests never take up the room that one of them would
have found. -/
theorem unharmed_iff (hsecret : endpoint.hmacSecret ≠ "") {visits : List Visit}
    (htimed : Timed ((everyone visits).map Arrival.call))
    (hforged : ∀ v ∈ visits, v.inserted = true → ¬ CorrectlySigned rt endpoint v.arrival.request) :
    Unharmed rt settings endpoint visits ↔ KeepsRoom rt settings endpoint visits := by
  induction visits using List.reverseRecOn with
  | nil =>
      refine iff_of_true ?_ ?_ <;>
      · intro before v after h
        simp at h
  | append_singleton visits v ih =>
      have hbefore : Unharmed rt settings endpoint visits ↔
          KeepsRoom rt settings endpoint visits := by
        refine ih (htimed.of_sublist ?_) (fun w hw => hforged w (List.mem_append_left _ hw))
        rw [everyone_snoc]
        exact (List.sublist_append_left _ _).map _
      unfold Unharmed KeepsRoom
      rw [atEach_snoc, atEach_snoc]
      constructor
      · rintro ⟨hunharmed, hlast⟩
        refine ⟨hbefore.mp hunharmed, ?_⟩
        intro hinserted hsigned
        have hsame := reservations_of_unharmed hsecret
          (fun w hw => hforged w (List.mem_append_left _ hw)) hunharmed
        exact (answer_eq_iff htimed hsame).mp (hlast hinserted hsigned)
      · rintro ⟨hkeeps, hlast⟩
        have hunharmed := hbefore.mpr hkeeps
        refine ⟨hunharmed, ?_⟩
        intro hinserted hsigned
        have hsame := reservations_of_unharmed hsecret
          (fun w hw => hforged w (List.mem_append_left _ hw)) hunharmed
        exact (answer_eq_iff htimed hsame).mpr (hlast hinserted hsigned)

/-! ## Locked out by a minute of forged requests -/

/-- One request a second, sixty a minute. -/
def limitedEndpoint : Endpoint := { sampleEndpoint with rateLimitRps := some 1 }

def forgedVisit (n : ℕ) : Visit where
  arrival := {
    now := 0
    member := OfNat.ofNat n
    eventId := OfNat.ofNat n
    request := { sampleRequest "order-7" with xHubSignature256 := some "sha256=deadbeef" } }
  inserted := true

def signedVisit : Visit where
  arrival := { now := 1, member := 100, eventId := 100, request := sampleRequest "order-7" }
  inserted := false

def flood (n : ℕ) : List Visit := (List.range n).map forgedVisit

/-- `n` forged requests, and a second later one that is signed. -/
def flooded (n : ℕ) : List Visit := flood n ++ [signedVisit]

theorem located_forgedVisit (n : ℕ) :
    located sampleRuntime {} limitedEndpoint (forgedVisit n).arrival.request = true := by
  show located sampleRuntime {} limitedEndpoint
    { sampleRequest "order-7" with xHubSignature256 := some "sha256=deadbeef" } = true
  decide +kernel

/-- Every one of them is counted. -/
theorem asked_flood (n : ℕ) :
    asked sampleRuntime {} limitedEndpoint (everyone (flood n)) =
      (List.range n).map (fun i => ⟨OfNat.ofNat i, 0⟩) := by
  have hlocated : ∀ a ∈ everyone (flood n),
      located sampleRuntime {} limitedEndpoint a.request = true := by
    intro a ha
    simp only [everyone, flood, List.map_map, List.mem_map] at ha
    obtain ⟨i, _, rfl⟩ := ha
    exact located_forgedVisit i
  have hlimited : ¬ limitedEndpoint.rateLimitRps.isNone = true := by decide
  unfold asked
  rw [if_neg hlimited, List.filter_eq_self.mpr hlocated]
  unfold everyone flood
  rw [List.map_map, List.map_map]
  rfl

theorem inserted_flood (n : ℕ) : ∀ v ∈ flood n, v.inserted = true := by
  intro v hv
  obtain ⟨i, _, rfl⟩ := List.mem_map.mp hv
  rfl

theorem signed_request_locked_out :
    ¬ ∀ rt settings endpoint visits, endpoint.hmacSecret ≠ "" →
      Timed ((everyone visits).map Arrival.call) →
      (∀ v ∈ visits, v.inserted = true → ¬ CorrectlySigned rt endpoint v.arrival.request) →
      Unharmed rt settings endpoint visits := by
  intro h
  have htimed : Timed ((everyone (flooded 60)).map Arrival.call) := by
    constructor <;> decide +kernel
  have hforged : ∀ v ∈ flooded 60, v.inserted = true →
      ¬ CorrectlySigned sampleRuntime limitedEndpoint v.arrival.request := by
    unfold CorrectlySigned
    decide +kernel
  have hunharmed := h sampleRuntime {} limitedEndpoint (flooded 60) (by decide) htimed hforged
  have hanswer := hunharmed (flood 60) signedVisit [] rfl rfl
    (by unfold CorrectlySigned; decide +kernel)
  -- before it nothing was reserved, so that the room decides
  have hflood : Unharmed sampleRuntime {} limitedEndpoint (flood 60) :=
    atEach_of_inserted (inserted_flood 60)
  have hreservations := reservations_of_unharmed (by decide)
    (fun v hv => hforged v (List.mem_append_left _ hv)) hflood
  have hroom := (answer_eq_iff htimed hreservations).mp hanswer (by decide +kernel)
    (by unfold HasRoom; decide +kernel)
  rw [asked_flood] at hroom
  revert hroom
  unfold HasRoom
  decide +kernel

/-- One forged request less leaves room. -/
theorem unharmed_flooded_one : Unharmed sampleRuntime {} limitedEndpoint (flooded 59) := by
  have htimed : Timed ((everyone (flooded 59)).map Arrival.call) := by
    constructor <;> decide +kernel
  have hforged : ∀ v ∈ flooded 59, v.inserted = true →
      ¬ CorrectlySigned sampleRuntime limitedEndpoint v.arrival.request := by
    unfold CorrectlySigned
    decide +kernel
  refine (unharmed_iff (by decide) htimed hforged).mpr ?_
  refine atEach_snoc.mpr ⟨atEach_of_inserted (inserted_flood 59), ?_⟩
  intro _ _ _ _
  rw [asked_flood]
  unfold HasRoom
  decide +kernel

end WebhookRelay.Gateway
