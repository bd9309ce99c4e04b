import WebhookRelay.Core.Models

/-!
# Route URLs and headers

`app/core/url_security.py`. `UrlRuntime` is what it asks of `urllib` and
`ipaddress`, `GetAddrInfo` one look-up of the resolver.
-/

namespace WebhookRelay

structure ParsedUrl where
  scheme : String
  hostname : Option String
  username : Option String := none
  password : Option String := none
  /-- The `ValueError` is that of a port no number from 0 to 65535. -/
  port : Except Exc (Option ℕ) := .ok none

structure IpAddress where
  isPrivate : Bool
  isLoopback : Bool
  isLinkLocal : Bool
  isMulticast : Bool
  isReserved : Bool
  isUnspecified : Bool

structure UrlRuntime where
  urlparse : String → Except Exc ParsedUrl
  /-- `none` is the `ValueError` of a text that is no address. -/
  ipAddress : String → Option IpAddress

/-- `text.lower()`, as far as equality with an ASCII text goes: besides the
ASCII capitals, only the Kelvin sign has an ASCII lower case. -/
def lower (text : String) : String :=
  text.map (fun c => if c = Char.ofNat 0x212a then 'k' else c.toLower)

def sensitiveHeaderNames : List String :=
  ["authorization", "cookie", "proxy-authorization", "set-cookie", "x-api-key", "x-auth-token",
    "x-forwarded-authorization"]

def redactHeaders (headers : Option Headers) : Option Headers :=
  headers.map (fun items => items.map (fun h =>
    if lower h.1 ∈ sensitiveHeaderNames then (h.1, "***REDACTED***") else h))

section

variable (rt : UrlRuntime)

/-- `_is_blocked_ip`. -/
def IpAddress.isBlocked (ip : IpAddress) : Bool :=
  ip.isPrivate || ip.isLoopback || ip.isLinkLocal || ip.isMulticast || ip.isReserved ||
    ip.isUnspecified

/-- `_is_blocked_host`. -/
def isBlockedHost (hostname : String) : Bool :=
  let normalized := lower (String.ofList
    (hostname.toList.reverse.dropWhile (fun c => c = '.')).reverse)
  if normalized = "localhost" ∨ normalized = "localhost.localdomain" then true
  else
    match rt.ipAddress normalized with
    | some ip => ip.isBlocked
    | none => false

/-- `validate_delivery_url`. -/
def validateDeliveryUrl (settings : Settings) (url : String) : Except Failure Unit :=
  match rt.urlparse url with
  | .error exc => .error (.raised exc)
  | .ok parsed =>
      let scheme := lower parsed.scheme
      let hostname := parsed.hostname.getD ""
      if (scheme ≠ "http" ∧ scheme ≠ "https") ∨ hostname = "" then
        .error (.http 400 "route url must be an absolute http(s) URL")
      else if scheme ≠ "https" ∧ settings.allowInsecureDeliveryUrls = false then
        .error (.http 400 "route url must use https")
      else if parsed.username.getD "" ≠ "" ∨ parsed.password.getD "" ≠ "" then
        .error (.http 400 "route url must not include credentials")
      else if isBlockedHost rt hostname then .error (.http 400 "route url host is not allowed")
      else .ok ()

/-! ## The check at delivery -/

/-- `_is_blocked_ip` on a text. -/
def isBlockedIp (address : String) : Except Exc Bool :=
  match rt.ipAddress address with
  | some ip => .ok ip.isBlocked
  | none =>
      .error ⟨"ValueError", "'" ++ address ++ "' does not appear to be an IPv4 or IPv6 address"⟩

/-- `socket.getaddrinfo(hostname, port, type=SOCK_STREAM)`: the addresses of
the answer, in the order the set of them is read in. -/
abbrev GetAddrInfo := String → ℕ → Except Exc (List String)

/-- The loop over the resolved addresses. -/
def checkAddresses : List String → Except Exc Unit
  | [] => .ok ()
  | address :: rest =>
      match isBlockedIp rt address with
      | .error exc => .error exc
      | .ok true => .error ⟨"ValueError", "route url resolves to a private or reserved address"⟩
      | .ok false => checkAddresses rest

/-- `port or 443`. -/
def portOrDefault (port : Option ℕ) : ℕ :=
  if port.getD 0 = 0 then 443 else port.getD 0

/-- `validate_delivery_url_for_request`. -/
def validateDeliveryUrlForRequest (settings : Settings) (getaddrinfo : GetAddrInfo) (url : String) :
    Except Exc Unit :=
  match validateDeliveryUrl rt settings url with
  | .error (.http _ detail) => .error ⟨"ValueError", detail⟩
  | .error (.raised exc) => .error exc
  | .error .unprocessable => .error ⟨"ValueError", ""⟩
  | .ok _ =>
      if settings.allowInsecureDeliveryUrls then .ok ()
      else do
        let parsed ← rt.urlparse url
        let port ← parsed.port
        let addresses ← getaddrinfo (parsed.hostname.getD "") (portOrDefault port)
        checkAddresses rt addresses

variable {rt}

theorem checkAddresses_eq_ok_iff {addresses : List String} :
    checkAddresses rt addresses = .ok () ↔
      ∀ address ∈ addresses, isBlockedIp rt address = .ok false := by
  induction addresses with
  | nil => simp [checkAddresses]
  | cons address rest ih =>
      rw [List.forall_mem_cons, ← ih, checkAddresses]
      match hblocked : isBlockedIp rt address with
      | .error exc => simp
      | .ok true => simp
      | .ok false => simp

/-- The look-up a check makes of an acceptable URL. -/
structure ChecksAddresses (rt : UrlRuntime) (settings : Settings) (getaddrinfo : GetAddrInfo)
    (url : String) (addresses : List String) : Prop where
  valid : validateDeliveryUrl rt settings url = .ok ()
  looked : ∃ parsed port, rt.urlparse url = .ok parsed ∧ parsed.port = .ok port ∧
    getaddrinfo (parsed.hostname.getD "") (portOrDefault port) = .ok addresses

/-- A URL passes exactly when it is acceptable as a text and every address
of the look-up is. -/
theorem validateDeliveryUrlForRequest_eq_ok_iff {settings : Settings} {getaddrinfo : GetAddrInfo}
    {url : String} (hsecure : settings.allowInsecureDeliveryUrls = false) :
    validateDeliveryUrlForRequest rt settings getaddrinfo url = .ok () ↔
      ∃ addresses, ChecksAddresses rt settings getaddrinfo url addresses ∧
        ∀ address ∈ addresses, isBlockedIp rt address = .ok false := by
  unfold validateDeliveryUrlForRequest
  constructor
  · intro h
    split at h
    · cases h
    · cases h
    · cases h
    · rename_i hvalid
      rw [if_neg (by simp [hsecure])] at h
      obtain ⟨parsed, hparsed, h⟩ := exists_of_bind_eq_ok h
      obtain ⟨port, hport, h⟩ := exists_of_bind_eq_ok h
      obtain ⟨addresses, hlooked, h⟩ := exists_of_bind_eq_ok h
      exact ⟨addresses, ⟨hvalid, parsed, port, hparsed, hport, hlooked⟩, checkAddresses_eq_ok_iff.mp
        h⟩
  · rintro ⟨addresses, ⟨hvalid, parsed, port, hparsed, hport, hlooked⟩, hclear⟩
    rw [hvalid]
    show (if settings.allowInsecureDeliveryUrls = true then _ else _) = _
    rw [if_neg (by simp [hsecure]), hparsed]
    show (parsed.port >>= _) = _
    rw [hport]
    show (getaddrinfo _ _ >>= _) = _
    rw [hlooked]
    exact checkAddresses_eq_ok_iff.mpr hclear

end

end WebhookRelay
