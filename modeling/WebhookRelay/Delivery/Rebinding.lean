import WebhookRelay.Core.UrlSecurity
import WebhookRelay.Delivery.DeadLetters

/-!
# The addresses a delivery connects to

`_deliver_with_retry` has its URL checked against one look-up of the host and
then hands the URL to `httpx`, which looks the host up again. `Resolver`
answers the two look-ups of every attempt as it likes, so which addresses are
connected to is settled by the second answer, which nothing checks: the exact
condition is on the answers themselves.
-/

namespace WebhookRelay.Delivery

/-- The look-ups of a delivery: one of the check and one of the connection in
each attempt that comes to send. -/
inductive LookUp where
  | check (attempt : ℕ)
  | connect (attempt : ℕ)

abbrev Resolver := LookUp → GetAddrInfo

/-- Where `httpx` finds host and port in a URL. -/
abbrev Target := String → Except Exc (String × ℕ)

/-- How many addresses of an answer the client tries, and in which order, is
up to the network. -/
structure Dialer where
  tried : ℕ → List String → List String
  tried_subset : ∀ attempt addresses, tried attempt addresses ⊆ addresses

/-- The client that tries them all. -/
def Dialer.all : Dialer := ⟨fun _ addresses => addresses, fun _ _ => List.Subset.refl _⟩

section

variable (rt : UrlRuntime) (settings : Settings) (eventId : UUID) (route : RouteDict) (body : Json)
  (target : Target) (resolver : Resolver) (dialer : Dialer)

/-- The answers of a call whose URL check asks the resolver. -/
def resolved (attempt : ℕ) (ans : CallAnswers) : CallAnswers :=
  { ans with
    urlCheck := validateDeliveryUrlForRequest rt settings (resolver (.check attempt)) route.url }

/-- The answer to the client's own look-up. -/
def connectAnswer (attempt : ℕ) (url : String) : Except Exc (List String) := do
  let (host, port) ← target url
  resolver (.connect attempt) host port

def dialed (attempt : ℕ) (r : HttpRequest) : List String :=
  match connectAnswer target resolver attempt r.url with
  | .ok addresses => dialer.tried attempt addresses
  | .error _ => []

/-- The addresses a delivery opens connections to, from this call on. -/
def connections : ℕ → ℕ → List CallAnswers → List String
  | _, _, [] => []
  | attempt, waits, ans :: rest =>
      let call := deliverCall settings eventId route body attempt waits
        (resolved rt settings route resolver attempt ans)
      (requestsOf call.1).flatMap (dialed target resolver dialer attempt) ++
        match call.2 with
        | .again attempt waits => connections attempt waits rest
        | _ => []

/-- Whatever the client tries and the rest of the world answers, a delivery
connects to allowed addresses only. -/
def ConnectsToAllowed : Prop :=
  ∀ dialer answers, ∀ address ∈ connections rt settings eventId route body target resolver dialer 0
    0 answers,
    isBlockedIp rt address = .ok false

/-- The attempts a delivery may come to. -/
def Attempted (attempt : ℕ) : Prop := attempt = 0 ∨ (attempt : ℤ) < maxRetries settings route

/-- No attempt has its host look clear to the check and blocked to the client. -/
def NeverRebound : Prop :=
  ∀ attempt, Attempted settings route attempt →
    ∀ first, ChecksAddresses rt settings (resolver (.check attempt)) route.url first →
      (∀ address ∈ first, isBlockedIp rt address = .ok false) →
        ∀ second, connectAnswer target resolver attempt route.url = .ok second →
          ∀ address ∈ second, isBlockedIp rt address = .ok false

end

/-! ## One call -/

section

variable {rt : UrlRuntime} {settings : Settings} {eventId : UUID} {route : RouteDict} {body : Json}
  {target : Target} {resolver : Resolver} {dialer : Dialer} {attempt waits : ℕ} {ans : CallAnswers}

/-- A call that sends has had its URL checked. -/
theorem urlCheck_of_mem_requestsOf {r : HttpRequest}
    (hr : r ∈ requestsOf (deliverCall settings eventId route body attempt waits ans).1) :
    ans.urlCheck = .ok () := by
  unfold deliverCall at hr
  split at hr
  · cases hr
  · rw [requestsOf_recorded] at hr
    · cases hr
    · split <;> rfl
  · unfold admitted at hr
    split at hr
    · cases hr
    · rw [requestsOf_recorded rfl] at hr
      cases hr
    · split at hr
      · cases hr
      · split at hr
        · rw [requestsOf_recorded rfl] at hr
          cases hr
        · cases hr
      · unfold requested at hr
        split at hr
        · rw [requestsOf_recorded requestsOf_conclude] at hr
          cases hr
        · assumption

theorem mem_dialed {r : HttpRequest} {address : String}
    (h : address ∈ dialed target resolver dialer attempt r) :
    ∃ addresses, connectAnswer target resolver attempt r.url = .ok addresses ∧
      address ∈ addresses := by
  unfold dialed at h
  split at h
  · rename_i addresses hanswer
    exact ⟨addresses, hanswer, dialer.tried_subset attempt addresses h⟩
  · cases h

/-- What one call connects to was answered to the client, after a clear
answer to the check. -/
theorem allowed_of_neverRebound (hsecure : settings.allowInsecureDeliveryUrls = false)
    (hnever : NeverRebound rt settings route target resolver)
    (hattempted : Attempted settings route attempt) {address : String}
    (h : address ∈ (requestsOf (deliverCall settings eventId route body attempt waits
      (resolved rt settings route resolver attempt ans)).1).flatMap
        (dialed target resolver dialer attempt)) :
    isBlockedIp rt address = .ok false := by
  obtain ⟨r, hr, hdialed⟩ := List.mem_flatMap.mp h
  have hurl : r.url = route.url := by rw [requestsOf_deliverCall r hr]; rfl
  have hcheck : validateDeliveryUrlForRequest rt settings (resolver (.check attempt)) route.url =
      .ok () :=
    urlCheck_of_mem_requestsOf hr
  obtain ⟨first, hlooked, hclear⟩ := (validateDeliveryUrlForRequest_eq_ok_iff hsecure).mp hcheck
  obtain ⟨second, hsecond, hmem⟩ := mem_dialed hdialed
  rw [hurl] at hsecond
  exact hnever attempt hattempted first hlooked hclear second hsecond address hmem

theorem attempted_of_advances {attempt' waits' : ℕ}
    (h : Advances settings route attempt waits attempt' waits')
    (hattempted : Attempted settings route attempt) :
    Attempted settings route attempt' := by
  rcases h with ⟨rfl, _, hmore⟩ | ⟨rfl, _, _⟩
  · right
    push_cast
    exact hmore
  · exact hattempted

/-! ## A whole delivery -/

theorem connections_allowed (hsecure : settings.allowInsecureDeliveryUrls = false)
    (hnever : NeverRebound rt settings route target resolver) (answers : List CallAnswers) :
    ∀ attempt waits, Attempted settings route attempt →
      ∀ address ∈ connections rt settings eventId route body target resolver dialer attempt waits
        answers,
        isBlockedIp rt address = .ok false := by
  induction answers with
  | nil =>
      intro attempt waits _ address h
      cases h
  | cons ans rest ih =>
      intro attempt waits hattempted address h
      rcases List.mem_append.mp h with hcall | hrest
      · exact allowed_of_neverRebound hsecure hnever hattempted hcall
      · generalize hresult : deliverCall settings eventId route body attempt waits
          (resolved rt settings route resolver attempt ans) = result at hrest
        obtain ⟨effects, next⟩ := result
        match next with
        | .again attempt' waits' =>
            have hadvances := (deliverCall_again hresult).2
            exact ih attempt' waits' (attempted_of_advances hadvances hattempted) address hrest
        | .returned => cases hrest
        | .raised _ => cases hrest

/-- The answers that keep a delivery going: every request gets a 503. -/
def unavailable : CallAnswers := { http := .response 503 "" }

theorem deliverCall_eq_requested (hopen : ans.isOpen = .ok false)
    (hroute : ans.routeAllows = .ok true) (hdest : ans.destAllows = .ok true) :
    deliverCall settings eventId route body attempt waits ans =
      requested settings eventId route body attempt ans := by
  unfold deliverCall admitted
  rw [hopen, hroute, hdest, ite_self]

/-- An attempt that ends in an error or in a 503 is followed by another while
there is one. -/
theorem requested_next (hcommit : ans.commit = .ok ()) (hreport : ans.report = .ok ())
    (hhttp : ans.http = .response 503 "") (hmore : (attempt : ℤ) + 1 < maxRetries settings route) :
    (requested settings eventId route body attempt ans).2 = .again (attempt + 1) 0 := by
  have hconclude : ∀ outcome : HttpOutcome, outcome.isSuccess = false →
    outcome.isClientError = false →
      outcome.isRetryable = true →
      (conclude settings eventId route body attempt ans outcome).2 = .again (attempt + 1) 0 := by
    intro outcome hsuccess hclient hretry
    unfold conclude
    rw [hsuccess, if_neg Bool.false_ne_true, hclient, if_neg Bool.false_ne_true, if_pos hretry,
      if_pos hmore]
    unfold reported
    rw [hreport]
  unfold requested recorded
  rw [hcommit, hhttp]
  split
  · exact hconclude (.raised _) rfl rfl rfl
  · exact hconclude (.response 503 "") rfl rfl rfl

theorem mem_requestsOf_requested (hcheck : ans.urlCheck = .ok ()) :
    request settings route body ∈ requestsOf
      (requested settings eventId route body attempt ans).1 := by
  unfold requested
  rw [hcheck]
  exact List.mem_cons_self

/-- A delivery that is kept going comes to every attempt. -/
theorem connections_of_unavailable {later : ℕ} {address : String}
    (hattempted : Attempted settings route later)
    (hcheck : validateDeliveryUrlForRequest rt settings (resolver (.check later)) route.url =
      .ok ())
    (haddress : address ∈ dialed target resolver dialer later (request settings route body)) :
    ∀ n attempt waits, attempt + n = later →
      address ∈ connections rt settings eventId route body target resolver dialer attempt waits
        (List.replicate (n + 1) unavailable) := by
  intro n
  induction n with
  | zero =>
      rintro attempt waits rfl
      refine List.mem_append_left _
        (List.mem_flatMap.mpr ⟨request settings route body, ?_, haddress⟩)
      rw [deliverCall_eq_requested rfl rfl rfl]
      exact mem_requestsOf_requested hcheck
  | succ n ih =>
      intro attempt waits hlater
      have hmore : (attempt : ℤ) + 1 < maxRetries settings route := by
        rcases hattempted with hzero | hlt
        · omega
        · omega
      apply List.mem_append_right _
      rw [deliverCall_eq_requested rfl rfl rfl, requested_next rfl rfl rfl hmore]
      exact ih (attempt + 1) 0 (by omega)

/-- A delivery is kept off blocked addresses exactly when no attempt it may
come to has its host rebound between the check and the connection. -/
theorem connectsToAllowed_iff_neverRebound (hsecure : settings.allowInsecureDeliveryUrls = false) :
    ConnectsToAllowed rt settings eventId route body target resolver ↔
      NeverRebound rt settings route target resolver := by
  constructor
  · intro h attempt hattempted first hlooked hclear second hsecond address hmem
    have hcheck := (validateDeliveryUrlForRequest_eq_ok_iff hsecure).mpr ⟨first, hlooked, hclear⟩
    have hdialed : address ∈ dialed target resolver Dialer.all attempt
        (request settings route body) := by
      have hanswer : connectAnswer target resolver attempt (request settings route body).url =
          .ok second :=
        hsecond
      unfold dialed
      rw [hanswer]
      exact hmem
    exact h Dialer.all _ address
      (connections_of_unavailable hattempted hcheck hdialed attempt 0 0 (Nat.zero_add attempt))
  · intro hnever dialer answers
    exact connections_allowed hsecure hnever answers 0 0 (.inl rfl)

/-- A host that gives the client no address it did not give the check is
never rebound. -/
theorem neverRebound_of_sub
    (hsub : ∀ attempt first second, ChecksAddresses rt settings (resolver (.check attempt))
      route.url first →
      connectAnswer target resolver attempt route.url = .ok second → second ⊆ first) :
    NeverRebound rt settings route target resolver := by
  intro attempt _ first hlooked hclear second hsecond address hmem
  exact hclear address (hsub attempt first second hlooked hsecond hmem)

end

/-! ## A host that is rebound -/

/-- `urllib`, `ipaddress` and `httpx` on one URL and two addresses. -/
def hookRuntime : UrlRuntime where
  urlparse := fun url =>
    if url = "https://hooks.example.com/in" then .ok
      { scheme := "https", hostname := some "hooks.example.com" }
    else .error ⟨"ValueError", url⟩
  ipAddress := fun text =>
    if text = "93.184.216.34" then
      some {
        isPrivate := false, isLoopback := false, isLinkLocal := false, isMulticast := false
        isReserved := false, isUnspecified := false }
    else if text = "169.254.169.254" then
      some {
        isPrivate := true, isLoopback := false, isLinkLocal := true, isMulticast := false
        isReserved := false, isUnspecified := false }
    else none

def hookTarget : Target := fun url =>
  if url = "https://hooks.example.com/in" then .ok ("hooks.example.com", 443)
  else .error ⟨"UnsupportedProtocol", url⟩

/-- A public address for the check, the metadata service for the connection. -/
def rebindingResolver : Resolver := fun lookUp _ _ =>
  match lookUp with
  | .check _ => .ok ["93.184.216.34"]
  | .connect _ => .ok ["169.254.169.254"]

def hookRoute : RouteDict := { id := 1, url := "https://hooks.example.com/in" }

theorem connects_to_rebound_address :
    connections hookRuntime {} 2 hookRoute .null hookTarget rebindingResolver Dialer.all 0 0 [{}] =
        ["169.254.169.254"] ∧
      ¬ ConnectsToAllowed hookRuntime {} 2 hookRoute .null hookTarget rebindingResolver := by
  have hconnects : connections hookRuntime {} 2 hookRoute .null hookTarget rebindingResolver
      Dialer.all 0 0 [{}] = ["169.254.169.254"] := by decide +kernel
  refine ⟨hconnects, ?_⟩
  intro hallowed
  have hblocked := hallowed Dialer.all [{}] "169.254.169.254" (by rw [hconnects]; simp)
  have htrue : isBlockedIp hookRuntime "169.254.169.254" = .ok true := by decide +kernel
  rw [htrue] at hblocked
  cases hblocked

/-- With a resolver that stands by its answer, the same delivery is kept off
blocked addresses. -/
theorem connectsToAllowed_of_steady_hook :
    ({} : Settings).allowInsecureDeliveryUrls = false ∧
      ConnectsToAllowed hookRuntime {} 2 hookRoute .null hookTarget
        (fun _ _ _ => .ok ["93.184.216.34"]) := by
  have hnever : NeverRebound hookRuntime {} hookRoute hookTarget
      (fun _ _ _ => .ok ["93.184.216.34"]) := by
    apply neverRebound_of_sub
    rintro attempt first second ⟨_, _, _, _, _, hfirst⟩ hsecond
    have hsecond' : second = ["93.184.216.34"] := by
      have hanswer : connectAnswer hookTarget (fun _ _ _ => .ok ["93.184.216.34"]) attempt
        hookRoute.url =
          .ok ["93.184.216.34"] := rfl
      rw [hanswer] at hsecond
      exact (Except.ok.inj hsecond).symm
    rw [hsecond', ← Except.ok.inj hfirst]
    exact List.Subset.refl _
  exact ⟨rfl, (connectsToAllowed_iff_neverRebound rfl).mpr hnever⟩

end WebhookRelay.Delivery
