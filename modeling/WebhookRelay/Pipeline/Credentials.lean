import WebhookRelay.Api.Events
import WebhookRelay.Gateway.Idempotency

/-!
# Credentials in stored headers

The gateway leaves out three headers when it stores an event, and the API
calls seven of them sensitive. Two requests that differ in credentials only
are stored alike exactly when they agree on the other four.
-/

namespace WebhookRelay.Pipeline

open Foundation Gateway

/-! ## The stored dictionary -/

/-- `d.get(key)`. -/
def headerValue (d : Headers) (name : String) : Option String :=
  (Rows.get Prod.fst d name).map Prod.snd

theorem get_setItem (d : Headers) (key value name : String) :
    Rows.get Prod.fst (setItem d key value) name =
      if name = key then some (key, value) else Rows.get Prod.fst d name := by
  unfold Rows.get
  induction d with
  | nil =>
      rw [setItem, List.find?_cons, List.find?_nil]
      by_cases hname : name = key
      · simp [hname]
      · simp [hname, Ne.symm hname]
  | cons item rest ih =>
      obtain ⟨k, v⟩ := item
      rw [setItem]
      by_cases hk : k = key
      · subst hk
        rw [if_pos rfl, List.find?_cons, List.find?_cons]
        by_cases hname : name = k
        · simp [hname]
        · simp [hname, Ne.symm hname]
      · rw [if_neg hk, List.find?_cons, List.find?_cons, ih]
        by_cases hname : k = name
        · subst hname
          simp [hk]
        · simp [hname]

@[simp] theorem headerValue_setItem (d : Headers) (key value name : String) :
    headerValue (setItem d key value) name =
      if name = key then some value else headerValue d name := by
  unfold headerValue
  rw [get_setItem]
  split <;> rfl

theorem keys_setItem (d : Headers) (key value : String) :
    (setItem d key value).map Prod.fst =
      if key ∈ d.map Prod.fst then d.map Prod.fst else d.map Prod.fst ++ [key] := by
  induction d with
  | nil => rfl
  | cons item rest ih =>
      obtain ⟨k, v⟩ := item
      rw [setItem]
      by_cases hk : k = key
      · subst hk
        simp
      · have hne : key ≠ k := Ne.symm hk
        rw [if_neg hk, List.map_cons, ih]
        by_cases hmem : key ∈ rest.map Prod.fst
        · rw [if_pos hmem, List.map_cons, if_pos (List.mem_cons_of_mem _ hmem)]
        · rw [if_neg hmem, List.map_cons, if_neg (List.not_mem_cons_of_ne_of_not_mem hne hmem),
            List.cons_append]

theorem keys_nodup_setItem {d : Headers} (nodup : (d.map Prod.fst).Nodup) (key value : String) :
    ((setItem d key value).map Prod.fst).Nodup := by
  rw [keys_setItem]
  split
  · exact nodup
  · rename_i hfresh
    exact nodup.append (List.nodup_singleton key) (by simpa using hfresh)

/-- One turn of the comprehension. -/
def keepHeader (kept : Headers) (h : String × String) : Headers :=
  if h.1.toLower ∉ excludedHeaders then setItem kept h.1.toLower h.2 else kept

theorem requestHeaders_eq_foldl (headers : Headers) :
    requestHeaders headers = headers.foldl keepHeader [] := by
  unfold requestHeaders keepHeader
  rw [List.foldl_filter]
  simp only [decide_eq_true_eq]

theorem keys_nodup_foldl {kept : Headers} (nodup : (kept.map Prod.fst).Nodup) (headers : Headers) :
    ((headers.foldl keepHeader kept).map Prod.fst).Nodup := by
  induction headers generalizing kept with
  | nil => exact nodup
  | cons h rest ih =>
      apply ih
      unfold keepHeader
      split
      · exact keys_nodup_setItem nodup _ _
      · exact nodup

/-- The value a name has at last, and `start` if it has none. -/
def lastValue (name : String) (start : Option String) (headers : Headers) : Option String :=
  headers.foldl (fun last h => if h.1.toLower = name then some h.2 else last) start

/-- What is stored under a name that is not left out is its last value. -/
theorem headerValue_foldl {name : String} (kept headers : Headers) :
    headerValue (headers.foldl keepHeader kept) name =
      if name ∈ excludedHeaders then headerValue kept name
      else lastValue name (headerValue kept name) headers := by
  induction headers generalizing kept with
  | nil => simp [lastValue]
  | cons h rest ih =>
      rw [List.foldl_cons, ih]
      unfold keepHeader
      by_cases hout : name ∈ excludedHeaders
      · rw [if_pos hout, if_pos hout]
        split
        · rename_i hkept
          have hne : name ≠ h.1.toLower := fun heq => hkept (heq ▸ hout)
          rw [headerValue_setItem, if_neg hne]
        · rfl
      · rw [if_neg hout, if_neg hout]
        unfold lastValue
        rw [List.foldl_cons]
        congr 1
        by_cases hname : h.1.toLower = name
        · rw [if_pos (hname ▸ hout), headerValue_setItem, if_pos hname.symm, if_pos hname]
        · rw [if_neg hname]
          split
          · rw [headerValue_setItem, if_neg (Ne.symm hname)]
          · rfl

/-! ## Two requests -/

/-- One header of each request: the name is the same, and so is the value
unless it is a credential. -/
def SameButSecret (h h' : String × String) : Prop :=
  h.1 = h'.1 ∧ (h.1.toLower ∉ sensitiveHeaderNames → h.2 = h'.2)

/-- Two requests that differ in the values of credentials only. -/
structure SameButSecrets (request request' : WebhookRequest) : Prop where
  rest : request' = { request with headers := request'.headers }
  headers : List.Forall₂ SameButSecret request.headers request'.headers

/-- The sensitive names that the gateway does not leave out. -/
def keptSecrets : List String := sensitiveHeaderNames.filter (fun name => name ∉ excludedHeaders)

example : keptSecrets =
    ["proxy-authorization", "x-api-key", "x-auth-token", "x-forwarded-authorization"] := by
  decide

/-- The requests give each of the kept names the same value. -/
def SameKeptSecrets (headers headers' : Headers) : Prop :=
  ∀ name ∈ keptSecrets, lastValue name none headers = lastValue name none headers'

theorem lastValue_eq_of_not_sensitive {name : String} (hname : name ∉ sensitiveHeaderNames)
    {headers headers' : Headers}
    (h : List.Forall₂ SameButSecret headers headers') (start : Option String) :
    lastValue name start headers = lastValue name start headers' := by
  unfold lastValue
  induction h generalizing start with
  | nil => rfl
  | @cons a b rest rest' hab _ ih =>
      obtain ⟨hkey, hvalue⟩ := hab
      have hturn : (if a.1.toLower = name then some a.2 else start) =
          if b.1.toLower = name then some b.2 else start := by
        rw [← hkey]
        by_cases heq : a.1.toLower = name
        · rw [if_pos heq, if_pos heq, hvalue (heq ▸ hname)]
        · rw [if_neg heq, if_neg heq]
      rw [List.foldl_cons, List.foldl_cons, hturn]
      exact ih _

/-- The stored names come from the names. -/
theorem keys_foldl_eq {headers headers' : Headers} (h : List.Forall₂ SameButSecret headers headers')
    {kept kept' : Headers} (hkeys : kept.map Prod.fst = kept'.map Prod.fst) :
    (headers.foldl keepHeader kept).map Prod.fst =
      (headers'.foldl keepHeader kept').map Prod.fst := by
  induction h generalizing kept kept' with
  | nil => exact hkeys
  | @cons a b rest rest' hab _ ih =>
      apply ih
      unfold keepHeader
      rw [hab.1]
      split
      · rw [keys_setItem, keys_setItem, hkeys]
      · exact hkeys

theorem eq_of_headerValue {d d' : Headers} (hkeys : d.map Prod.fst = d'.map Prod.fst)
    (nodup : (d.map Prod.fst).Nodup) (hvalue : ∀ name, headerValue d name = headerValue d' name) :
      d = d' := by
  apply Rows.ext_get hkeys nodup
  intro name
  have hkey : ∀ d : Headers, Rows.get Prod.fst d name = (headerValue d name).map
      (fun v => (name, v)) := by
    intro d
    unfold headerValue
    cases hget : Rows.get Prod.fst d name with
    | none => rfl
    | some item =>
        have hname : item.1 = name := by simpa using List.find?_some hget
        exact congrArg some (Prod.ext hname rfl)
  rw [hkey, hkey, hvalue]

/-- Stored alike means the same value for each of the kept names. -/
theorem requestHeaders_eq_iff {headers headers' : Headers}
    (h : List.Forall₂ SameButSecret headers headers') :
    requestHeaders headers = requestHeaders headers' ↔ SameKeptSecrets headers headers' := by
  have hstored : ∀ (headers : Headers) (name : String), headerValue (requestHeaders headers) name =
      if name ∈ excludedHeaders then none else lastValue name none headers := by
    intro headers name
    rw [requestHeaders_eq_foldl, headerValue_foldl]
    rfl
  constructor
  · intro heq name hname
    have hkept : name ∉ excludedHeaders := of_decide_eq_true (List.mem_filter.mp hname).2
    have hvalue := congrArg (fun d => headerValue d name) heq
    simpa only [hstored, if_neg hkept] using hvalue
  · intro hsame
    refine eq_of_headerValue ?_ ?_ ?_
    · rw [requestHeaders_eq_foldl, requestHeaders_eq_foldl]
      exact keys_foldl_eq h rfl
    · rw [requestHeaders_eq_foldl]
      have hnone : (([] : Headers).map Prod.fst).Nodup := List.nodup_nil
      exact keys_nodup_foldl hnone headers
    · intro name
      rw [hstored, hstored]
      by_cases hout : name ∈ excludedHeaders
      · rw [if_pos hout, if_pos hout]
      · rw [if_neg hout, if_neg hout]
        by_cases hsecret : name ∈ sensitiveHeaderNames
        · exact hsame name (List.mem_filter.mpr ⟨hsecret, decide_eq_true hout⟩)
        · exact lastValue_eq_of_not_sensitive hsecret h none

/-! ## What a viewer sees -/

def Reads : Api.Operation → Prop
  | .getEvent _ | .listEvents _ _ _ => True
  | _ => False

def withEvent (db : Database) (event : Event) : Database :=
  { db with events := db.events ++ [event] }

/-- No `get_event` and no `list_events` tells the two stores apart. -/
def AlikeToViewers (settings : Settings) (db db' : Database) : Prop :=
  ∀ (env : Api.Env) (request : Api.Request), Reads request.operation →
    (Api.handle env settings request db).response = (Api.handle env settings request db').response

variable {rt : Gateway.Runtime} {settings : Settings} {db : Database}

/-- A member of the workspace gets the new event as it is stored. -/
theorem handle_getEvent (env : Api.Env) {user : UUID} {membership : WorkspaceMembership}
    {endpoint : Endpoint} {event : Event} {id : UUID} (hid : event.id = id)
    (hendpoint : Api.endpointById db event.endpointId = some endpoint)
    (hviewer : Api.membershipById db user endpoint.workspaceId = some membership)
    (hfresh : id ∉ db.events.map Event.id) :
    (Api.handle env settings ⟨.ok user, endpoint.workspaceId.str, .getEvent id.str⟩
      (withEvent db event)).response = .ok (200, .event (Api.eventOut event)) := by
  subst hid
  have hmembership : Api.getWorkspaceMembership (withEvent db event) (.ok user)
    endpoint.workspaceId.str =
      .ok membership := by
    unfold Api.getWorkspaceMembership
    rw [UUID.parse_str]
    have hfound : Api.membershipById (withEvent db event) user endpoint.workspaceId =
        some membership := hviewer
    simp only [bind, Except.bind, hfound]
  have hworkspace : membership.workspaceId = endpoint.workspaceId := by
    have hkey : Api.membershipKey membership = (user, endpoint.workspaceId) := by
      simpa using List.find?_some hviewer
    exact congrArg Prod.snd hkey
  have hevent : Api.eventById (withEvent db event) event.id = some event := by
    have hold : db.events.find? (fun e => e.id = event.id) = none := by
      refine List.find?_eq_none.mpr ?_
      intro e he hid
      exact hfresh (of_decide_eq_true hid ▸ List.mem_map_of_mem he)
    show (db.events ++ [event]).find? (fun e => e.id = event.id) = some event
    rw [List.find?_append, hold]
    simp
  have hread : Api.eventOr404 (withEvent db event) membership.workspaceId event.id = .ok event := by
    have hstored : Api.endpointById (withEvent db event) event.endpointId = some endpoint :=
      hendpoint
    unfold Api.eventOr404
    simp only [hevent, hstored, hworkspace, if_true]
  have hrole : Api.requireWorkspaceRole .viewer membership = .ok membership :=
    if_neg (Nat.not_lt_zero _)
  unfold Api.handle
  simp only [hmembership, Api.Operation.minimumRole, hrole, bind, Except.bind, Api.Operation.run,
    Api.getEvent,
    Api.parseUuid, UUID.parse_str, hread]
  rfl

/-- Requests that pass the checks of one endpoint, and have the same body. -/
theorem eq_of_accepted {request request' : WebhookRequest} (hsame : SameButSecrets request request')
    {limiter limiter' : Except Exc Bool} {endpoint endpoint' : Endpoint} {payload payload' : Json}
    (haccepted : check rt settings db.endpoints limiter request = .ok (endpoint, payload))
    (haccepted' : check rt settings db.endpoints limiter' request' = .ok (endpoint', payload')) :
    endpoint' = endpoint ∧ payload' = payload := by
  have hlocate : locate rt settings db.endpoints request' =
      locate rt settings db.endpoints request := by
    rw [hsame.rest]
    rfl
  rw [check_eq] at haccepted haccepted'
  obtain ⟨⟨body, found⟩, hfound, haccepted⟩ := exists_of_bind_eq_ok haccepted
  obtain ⟨_, _, haccepted⟩ := exists_of_bind_eq_ok haccepted
  obtain ⟨_, _, hparsed⟩ := exists_of_bind_eq_ok haccepted
  rw [hlocate, hfound] at haccepted'
  obtain ⟨_, hstart, haccepted'⟩ := exists_of_bind_eq_ok haccepted'
  cases hstart
  obtain ⟨_, _, haccepted'⟩ := exists_of_bind_eq_ok haccepted'
  obtain ⟨_, _, hparsed'⟩ := exists_of_bind_eq_ok haccepted'
  have hpair := Except.ok.inj (hparsed'.symm.trans hparsed)
  exact ⟨congrArg Prod.fst hpair, congrArg Prod.snd hpair⟩

theorem endpointById_of_accepted {request : WebhookRequest} {limiter : Except Exc Bool}
    {endpoint : Endpoint} {payload : Json}
    (h : check rt settings db.endpoints limiter request = .ok (endpoint, payload)) :
    Api.endpointById db endpoint.id = some endpoint := by
  obtain ⟨body, hlocate, _⟩ := check_eq_ok h
  obtain ⟨_, id, _, hfind⟩ := locate_eq_ok hlocate
  have hid : endpoint.id = id := by simpa using List.find?_some hfind
  rw [hid]
  exact hfind

/-- `get_event` asks nothing of its environment. -/
def viewerEnv : Api.Env where
  url := { urlparse := fun _ => .error ⟨"ValueError", ""⟩, ipAddress := fun _ => none }
  compiles := fun _ => false
  newId := 0
  secret := ""
  now := 0

/-- Two accepted requests that differ in credentials only are stored with the
same headers exactly when they agree on the credentials that are kept, and
only then does no member of the workspace see which of the two it was. -/
theorem credentials_unkept_iff {request request' : WebhookRequest}
    (hsame : SameButSecrets request request')
    {limiter limiter' : Except Exc Bool} {endpoint endpoint' : Endpoint} {payload payload' : Json}
    (haccepted : check rt settings db.endpoints limiter request = .ok (endpoint, payload))
    (haccepted' : check rt settings db.endpoints limiter' request' = .ok (endpoint', payload'))
    {user : UUID} {membership : WorkspaceMembership}
    (hviewer : Api.membershipById db user endpoint.workspaceId = some membership) :
    (∀ id now id' now', (newEvent id now endpoint payload request).requestHeaders =
        (newEvent id' now' endpoint' payload' request').requestHeaders ↔
          SameKeptSecrets request.headers request'.headers) ∧
      ∀ id now, id ∉ db.events.map Event.id →
        (AlikeToViewers settings (withEvent db (newEvent id now endpoint payload request))
            (withEvent db (newEvent id now endpoint' payload' request')) ↔
          SameKeptSecrets request.headers request'.headers) := by
  obtain ⟨rfl, rfl⟩ := eq_of_accepted hsame haccepted haccepted'
  have hheaders : ∀ id now id' now', (newEvent id now endpoint' payload' request).requestHeaders =
      (newEvent id' now' endpoint' payload' request').requestHeaders ↔
        SameKeptSecrets request.headers request'.headers := by
    intro id now id' now'
    rw [← requestHeaders_eq_iff hsame.headers]
    exact Option.some_inj
  refine ⟨hheaders, ?_⟩
  intro id now hfresh
  rw [← hheaders id now id now]
  constructor
  · intro halike
    have hanswer := halike viewerEnv ⟨.ok user, endpoint'.workspaceId.str, .getEvent id.str⟩ trivial
    have hendpoint := endpointById_of_accepted haccepted
    have hseen : ∀ r : WebhookRequest,
        (Api.handle viewerEnv settings ⟨.ok user, endpoint'.workspaceId.str, .getEvent id.str⟩
          (withEvent db (newEvent id now endpoint' payload' r))).response =
            .ok (200, .event (Api.eventOut (newEvent id now endpoint' payload' r))) := by
      intro r
      exact handle_getEvent viewerEnv rfl hendpoint hviewer hfresh
    rw [hseen, hseen] at hanswer
    have hout := Except.ok.inj hanswer
    simp only [Prod.mk.injEq, Api.Body.event.injEq, true_and] at hout
    exact congrArg Api.EventOut.requestHeaders hout
  · intro hequal
    have hevent : newEvent id now endpoint' payload' request =
        newEvent id now endpoint' payload' request' := by
      have hrest := hsame.rest
      have hheaders : some (requestHeaders request.headers) =
          some (requestHeaders request'.headers) := hequal
      unfold newEvent
      rw [hheaders]
      rw [hrest]
    rw [hevent]
    exact fun _ _ _ => rfl

/-! ## A shop with two keys -/

def shopStore : Database where
  endpoints := [sampleEndpoint]
  memberships := [⟨1, 9, .viewer⟩]

def shopRequest (authorization apiKey : String) : WebhookRequest :=
  { sampleRequest "" with
    headers := [("Authorization", authorization), ("X-Api-Key", apiKey), ("X-Shop", "1")] }

theorem accepted_shopRequest (authorization apiKey : String) :
    check sampleRuntime {} shopStore.endpoints (.ok true) (shopRequest authorization apiKey) =
      .ok (sampleEndpoint, .obj []) := by
  have hlocate : locate sampleRuntime {} shopStore.endpoints (shopRequest authorization apiKey) =
      .ok ([123, 125], sampleEndpoint) :=
    locate_sampleRequest "" _ _
  have hsecret : checkSecret sampleRuntime sampleEndpoint [123, 125]
      (shopRequest authorization apiKey).xHubSignature256 = .ok () := by
    have hnonempty : sampleEndpoint.hmacSecret ≠ "" := by decide
    have hheader : (shopRequest authorization apiKey).xHubSignature256 = some (signaturePrefix ++
        "ae6341ea7f40a435db57d903d02cba19085efb8a913f8cfbd8cff3d7df0c7a2d") := by
      show (sampleRequest "").xHubSignature256 = _
      decide +kernel
    rw [hheader, checkSecret, if_pos hnonempty, checkSignature_prefixed,
      if_neg (by decide +kernel), if_neg (by decide +kernel)]
  rw [check_eq, hlocate]
  simp only [bind, Except.bind, hsecret]
  rfl

theorem sameButSecrets_shopRequests (authorization authorization' apiKey apiKey' : String) :
    SameButSecrets (shopRequest authorization apiKey) (shopRequest authorization' apiKey') := by
  have hauthorization : "Authorization".toLower ∈ sensitiveHeaderNames := by decide +kernel
  have hkey : "X-Api-Key".toLower ∈ sensitiveHeaderNames := by decide +kernel
  refine ⟨rfl, .cons ⟨rfl, ?_⟩ (.cons ⟨rfl, ?_⟩ (.cons ⟨rfl, fun _ => rfl⟩ .nil))⟩
  · exact fun h => absurd hauthorization h
  · exact fun h => absurd hkey h

/-- Only what the gateway leaves out differs. -/
theorem credentials_of_two_authorizations :
    (∀ id now id' now',
      (newEvent id now sampleEndpoint (.obj []) (shopRequest "Basic YQ==" "k-1")).requestHeaders =
        (newEvent id' now' sampleEndpoint (.obj [])
          (shopRequest "Basic Yg==" "k-1")).requestHeaders) ∧
      ∀ id now, id ∉ shopStore.events.map Event.id →
        AlikeToViewers {}
          (withEvent shopStore
            (newEvent id now sampleEndpoint (.obj []) (shopRequest "Basic YQ==" "k-1")))
          (withEvent shopStore
            (newEvent id now sampleEndpoint (.obj []) (shopRequest "Basic Yg==" "k-1"))) := by
  have hviewer : Api.membershipById shopStore 1 sampleEndpoint.workspaceId =
      some ⟨1, 9, .viewer⟩ := by decide
  have hkept : SameKeptSecrets (shopRequest "Basic YQ==" "k-1").headers
      (shopRequest "Basic Yg==" "k-1").headers := by
    unfold SameKeptSecrets
    decide +kernel
  obtain ⟨hstored, halike⟩ := credentials_unkept_iff (sameButSecrets_shopRequests _ _ _ _)
    (accepted_shopRequest "Basic YQ==" "k-1") (accepted_shopRequest "Basic Yg==" "k-1") hviewer
  exact ⟨fun id now id' now' => (hstored id now id' now').mpr hkept,
    fun id now hfresh => (halike id now hfresh).mpr hkept⟩

/-- The key is kept, and a request with another key is stored otherwise. -/
theorem api_key_kept :
    ¬ ∀ (rt : Gateway.Runtime) (settings : Settings) (db : Database)
      (request request' : WebhookRequest),
      SameButSecrets request request' →
        ∀ (limiter : Except Exc Bool) (endpoint : Endpoint) (payload : Json),
        check rt settings db.endpoints limiter request = .ok (endpoint, payload) →
        check rt settings db.endpoints limiter request' = .ok (endpoint, payload) →
          ∀ id now, (newEvent id now endpoint payload request).requestHeaders =
            (newEvent id now endpoint payload request').requestHeaders := by
  intro h
  have hequal := h sampleRuntime {} shopStore _ _ (sameButSecrets_shopRequests "" "" "k-1" "k-2") _
    _ _
    (accepted_shopRequest "" "k-1") (accepted_shopRequest "" "k-2") 10 0
  have hstored : (newEvent 10 0 sampleEndpoint (.obj []) (shopRequest "" "k-1")).requestHeaders ≠
      (newEvent 10 0 sampleEndpoint (.obj []) (shopRequest "" "k-2")).requestHeaders := by
    decide +kernel
  exact hstored hequal

end WebhookRelay.Pipeline
