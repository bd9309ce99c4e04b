import WebhookRelay.Core.UrlSecurity
import WebhookRelay.Foundation.Networks

/-!
# Which addresses pass

The properties `_is_blocked_ip` asks of an address, over the network tables of
`ipaddress`. One block is neither private nor globally reachable, the shared
space 100.64.0.0/10, and none of the six properties has it. `consistent` says
whether an IPv4-mapped IPv6 address takes all its properties from the IPv4
address it maps, as the later 3.12 releases have it, or `is_private` alone.
-/

namespace WebhookRelay

namespace IPv4

def bits (a b c d : ℕ) : BitVec 32 := BitVec.ofNat 32 (((a * 256 + b) * 256 + c) * 256 + d)

def sharedNetwork : Network 32 := ⟨bits 100 64 0 0, 10⟩

def loopbackNetwork : Network 32 := ⟨bits 127 0 0 0, 8⟩

def linkLocalNetwork : Network 32 := ⟨bits 169 254 0 0, 16⟩

def multicastNetwork : Network 32 := ⟨bits 224 0 0 0, 4⟩

def reservedNetwork : Network 32 := ⟨bits 240 0 0 0, 4⟩

def privateNetworks : List (Network 32) :=
  [⟨bits 0 0 0 0, 8⟩, ⟨bits 10 0 0 0, 8⟩, ⟨bits 127 0 0 0, 8⟩, ⟨bits 169 254 0 0, 16⟩,
    ⟨bits 172 16 0 0, 12⟩, ⟨bits 192 0 0 0, 24⟩, ⟨bits 192 0 0 170, 31⟩, ⟨bits 192 0 2 0, 24⟩,
    ⟨bits 192 168 0 0, 16⟩, ⟨bits 198 18 0 0, 15⟩, ⟨bits 198 51 100 0, 24⟩,
    ⟨bits 203 0 113 0, 24⟩, ⟨bits 240 0 0 0, 4⟩, ⟨bits 255 255 255 255, 32⟩]

def privateExceptions : List (Network 32) := [⟨bits 192 0 0 9, 32⟩, ⟨bits 192 0 0 10, 32⟩]

variable (a : BitVec 32)

def isPrivate : Bool :=
  Network.covers privateNetworks a && !Network.covers privateExceptions a

def isGlobal : Bool := !decide (sharedNetwork.Contains a) && !isPrivate a

def isLoopback : Bool := loopbackNetwork.Contains a

def isLinkLocal : Bool := linkLocalNetwork.Contains a

def isMulticast : Bool := multicastNetwork.Contains a

def isReserved : Bool := reservedNetwork.Contains a

def isUnspecified : Bool := a = 0

def flags : IpAddress where
  isPrivate := isPrivate a
  isLoopback := isLoopback a
  isLinkLocal := isLinkLocal a
  isMulticast := isMulticast a
  isReserved := isReserved a
  isUnspecified := isUnspecified a

variable {a}

/-- Everything the code looks at lies apart from the shared space. -/
theorem not_blocked_of_shared (h : sharedNetwork.Contains a) : (flags a).isBlocked = false := by
  have apart : ∀ {n : Network 32}, ¬ sharedNetwork.Overlaps n → ¬ n.Contains a := by
    intro n hapart hcontains
    exact hapart (Network.overlaps_of_contains h hcontains)
  have hprivate : isPrivate a = false := by
    unfold isPrivate
    rw [Network.covers_eq_false_of_apart h (by decide), Bool.false_and]
  have hzero : ¬ a = 0#32 := by
    rintro rfl
    revert h
    decide
  have hloopback : ¬ loopbackNetwork.Contains a := apart (by decide)
  have hlinkLocal : ¬ linkLocalNetwork.Contains a := apart (by decide)
  have hmulticast : ¬ multicastNetwork.Contains a := apart (by decide)
  have hreserved : ¬ reservedNetwork.Contains a := apart (by decide)
  simp [IpAddress.isBlocked, flags, isLoopback, isLinkLocal, isMulticast, isReserved,
    isUnspecified, hprivate, hzero, hloopback, hlinkLocal, hmulticast, hreserved]

theorem blocked_of_private (h : isPrivate a = true) : (flags a).isBlocked = true := by
  simp [IpAddress.isBlocked, flags, h]

theorem blocked_of_multicast (h : isMulticast a = true) : (flags a).isBlocked = true := by
  simp [IpAddress.isBlocked, flags, h]

/-- A private network without exceptions in it is private as a whole. -/
theorem private_of_mem {n : Network 32} (hn : n ∈ privateNetworks)
    (hapart : ∀ m ∈ privateExceptions, ¬ n.Overlaps m) (h : n.Contains a) :
    isPrivate a = true := by
  unfold isPrivate
  rw [Network.covers_eq_false_of_apart h hapart, Network.covers_of_mem hn h]
  rfl

/-- Loopback, link-local and unspecified addresses are private ones. -/
theorem not_blocked_of_not_private (hprivate : isPrivate a = false)
    (hmulticast : isMulticast a = false) (hreserved : isReserved a = false) :
    (flags a).isBlocked = false := by
  have hloopback : isLoopback a = false := by
    apply decide_eq_false
    intro h
    rw [private_of_mem (n := loopbackNetwork) (by decide) (by decide) h] at hprivate
    cases hprivate
  have hlinkLocal : isLinkLocal a = false := by
    apply decide_eq_false
    intro h
    rw [private_of_mem (n := linkLocalNetwork) (by decide) (by decide) h] at hprivate
    cases hprivate
  have hunspecified : isUnspecified a = false := by
    apply decide_eq_false
    rintro rfl
    revert hprivate
    decide
  simp [IpAddress.isBlocked, flags, hprivate, hloopback, hlinkLocal, hmulticast, hreserved,
    hunspecified]

end IPv4

namespace IPv6

/-- An address from its first 16-bit groups; the rest is zero. -/
def groups (first : List ℕ) : BitVec 128 :=
  BitVec.ofNat 128 ((List.range 8).foldl (fun n i => n * 65536 + first.getD i 0) 0)

def linkLocalNetwork : Network 128 := ⟨groups [0xfe80], 10⟩

def multicastNetwork : Network 128 := ⟨groups [0xff00], 8⟩

def privateNetworks : List (Network 128) :=
  [⟨groups [0, 0, 0, 0, 0, 0, 0, 1], 128⟩, ⟨groups [], 128⟩,
    ⟨groups [0, 0, 0, 0, 0, 0xffff], 96⟩, ⟨groups [0x64, 0xff9b, 1], 48⟩, ⟨groups [0x100], 64⟩,
    ⟨groups [0x2001], 23⟩, ⟨groups [0x2001, 0xdb8], 32⟩, ⟨groups [0x2002], 16⟩,
    ⟨groups [0xfc00], 7⟩, ⟨groups [0xfe80], 10⟩]

def privateExceptions : List (Network 128) :=
  [⟨groups [0x2001, 1, 0, 0, 0, 0, 0, 1], 128⟩, ⟨groups [0x2001, 1, 0, 0, 0, 0, 0, 2], 128⟩,
    ⟨groups [0x2001, 3], 32⟩, ⟨groups [0x2001, 4, 0x112], 48⟩, ⟨groups [0x2001, 0x20], 28⟩,
    ⟨groups [0x2001, 0x30], 28⟩]

def reservedNetworks : List (Network 128) :=
  [⟨groups [], 8⟩, ⟨groups [0x100], 8⟩, ⟨groups [0x200], 7⟩, ⟨groups [0x400], 6⟩,
    ⟨groups [0x800], 5⟩, ⟨groups [0x1000], 4⟩, ⟨groups [0x4000], 3⟩, ⟨groups [0x6000], 3⟩,
    ⟨groups [0x8000], 3⟩, ⟨groups [0xa000], 3⟩, ⟨groups [0xc000], 3⟩, ⟨groups [0xe000], 4⟩,
    ⟨groups [0xf000], 5⟩, ⟨groups [0xf800], 6⟩, ⟨groups [0xfe00], 9⟩]

variable (consistent : Bool) (a : BitVec 128)

def ipv4Mapped : Option (BitVec 32) :=
  if a >>> 32 = 0xffff then some (a.setWidth 32) else none

/-- A property that an IPv4-mapped address has from the IPv4 address. -/
def mappedOr (mapped : BitVec 32 → Bool) (own : Bool) : Bool := ((ipv4Mapped a).map mapped).getD own

def isPrivate : Bool :=
  mappedOr a IPv4.isPrivate
    (Network.covers privateNetworks a && !Network.covers privateExceptions a)

/-- The same where only the later releases look at the IPv4 address. -/
def laterMappedOr (mapped : BitVec 32 → Bool) (own : Bool) : Bool :=
  if consistent then mappedOr a mapped own else own

def isGlobal : Bool := laterMappedOr consistent a IPv4.isGlobal (!isPrivate a)

def isLoopback : Bool := a = 1

def isLinkLocal : Bool :=
  laterMappedOr consistent a IPv4.isLinkLocal (linkLocalNetwork.Contains a)

def isMulticast : Bool :=
  laterMappedOr consistent a IPv4.isMulticast (multicastNetwork.Contains a)

def isReserved : Bool :=
  laterMappedOr consistent a IPv4.isReserved (Network.covers reservedNetworks a)

def isUnspecified : Bool := laterMappedOr consistent a IPv4.isUnspecified (a = 0)

def flags : IpAddress where
  isPrivate := isPrivate a
  isLoopback := isLoopback a
  isLinkLocal := isLinkLocal consistent a
  isMulticast := isMulticast consistent a
  isReserved := isReserved consistent a
  isUnspecified := isUnspecified consistent a

variable {consistent a}

theorem blocked_of_private (h : isPrivate a = true) : (flags consistent a).isBlocked = true := by
  simp [IpAddress.isBlocked, flags, h]

theorem blocked_of_multicast (h : isMulticast consistent a = true) :
    (flags consistent a).isBlocked = true := by
  simp [IpAddress.isBlocked, flags, h]

theorem private_of_mem {n : Network 128} (hn : n ∈ privateNetworks)
    (hapart : ∀ m ∈ privateExceptions, ¬ n.Overlaps m) (h : n.Contains a)
    (hmapped : ipv4Mapped a = none) : isPrivate a = true := by
  unfold isPrivate mappedOr
  rw [hmapped, Network.covers_eq_false_of_apart h hapart, Network.covers_of_mem hn h]
  rfl

theorem ipv4Mapped_one : ipv4Mapped 1 = none := by decide

/-- The mapped addresses lie in ::/8, which is reserved. -/
theorem covers_reserved_of_mapped {b : BitVec 32} (h : ipv4Mapped a = some b) :
    Network.covers reservedNetworks a = true := by
  unfold ipv4Mapped at h
  split at h
  · rename_i hhigh
    have hzero : Network.Contains ⟨groups [], 8⟩ a := by
      show a &&& BitVec.allOnes 128 <<< 120 = groups []
      rw [← BitVec.shiftLeft_ushiftRight]
      have hsplit : a >>> 120 = (a >>> 32) >>> 88 := BitVec.shiftRight_add a 32 88
      rw [hsplit, hhigh]
      decide
    exact Network.covers_of_mem (by decide) hzero
  · cases h

theorem not_blocked_of_not_private (hmapped : ipv4Mapped a = none)
    (hprivate : isPrivate a = false) (hmulticast : isMulticast consistent a = false)
    (hreserved : isReserved consistent a = false) : (flags consistent a).isBlocked = false := by
  have hloopback : isLoopback a = false := by
    apply decide_eq_false
    rintro rfl
    revert hprivate
    decide
  have hlinkLocal : isLinkLocal consistent a = false := by
    have hnot : ¬ linkLocalNetwork.Contains a := by
      intro h
      rw [private_of_mem (n := linkLocalNetwork) (by decide) (by decide) h hmapped] at hprivate
      cases hprivate
    simp [isLinkLocal, laterMappedOr, mappedOr, hmapped, hnot]
  have hunspecified : isUnspecified consistent a = false := by
    have hnot : ¬ a = 0#128 := by
      rintro rfl
      revert hprivate
      decide
    simp [isUnspecified, laterMappedOr, mappedOr, hmapped, hnot]
  simp [IpAddress.isBlocked, flags, hprivate, hloopback, hlinkLocal, hmulticast, hreserved,
    hunspecified]

/-- Property for property, a mapped address is the IPv4 address. -/
theorem isBlocked_of_mapped {b : BitVec 32} (h : ipv4Mapped a = some b) :
    (flags true a).isBlocked = (IPv4.flags b).isBlocked := by
  have hloopback : isLoopback a = false := by
    apply decide_eq_false
    rintro rfl
    rw [ipv4Mapped_one] at h
    cases h
  -- a mapped loopback address is not `::1`, but it is private
  have hprivate : IPv4.isLoopback b = true → IPv4.isPrivate b = true := by
    intro hb
    exact IPv4.private_of_mem (n := IPv4.loopbackNetwork) (by decide) (by decide)
      (of_decide_eq_true hb)
  simp only [IpAddress.isBlocked, flags, hloopback, isPrivate, isLinkLocal, isMulticast,
    isReserved, isUnspecified, laterMappedOr, mappedOr, h, if_true, Option.map_some,
    Option.getD_some, IPv4.flags]
  cases hb : IPv4.isLoopback b with
  | false => rfl
  | true =>
      rw [hprivate hb]
      rfl

end IPv6

/-- What `ipaddress.ip_address` makes of a text. -/
inductive Address where
  | v4 (bits : BitVec 32)
  | v6 (bits : BitVec 128)

namespace Address

variable (consistent : Bool)

def flags : Address → IpAddress
  | v4 a => IPv4.flags a
  | v6 a => IPv6.flags consistent a

def isGlobal : Address → Bool
  | v4 a => IPv4.isGlobal a
  | v6 a => IPv6.isGlobal consistent a

/-- A public address: globally reachable and not multicast. -/
def isPublic (a : Address) : Bool := a.isGlobal consistent && !(a.flags consistent).isMulticast

/-- The shared space 100.64.0.0/10, itself or mapped into IPv6. -/
def isShared : Address → Bool
  | v4 a => IPv4.sharedNetwork.Contains a
  | v6 a =>
      IPv6.laterMappedOr consistent a (fun b => IPv4.sharedNetwork.Contains b) false

variable {consistent} {a : Address}

theorem blocked_of_not_public (hpublic : a.isPublic consistent = false)
    (hshared : a.isShared consistent = false) : (a.flags consistent).isBlocked = true := by
  unfold isPublic at hpublic
  rw [Bool.and_eq_false_iff, Bool.not_eq_false'] at hpublic
  rcases hpublic with hglobal | hmulticast
  · -- an address that is not globally reachable is private or shared
    cases a with
    | v4 a =>
        have hnot : ¬ IPv4.sharedNetwork.Contains a := of_decide_eq_false hshared
        apply IPv4.blocked_of_private
        simpa [isGlobal, IPv4.isGlobal, hnot] using hglobal
    | v6 a =>
        simp only [isGlobal, IPv6.isGlobal, IPv6.laterMappedOr, IPv6.mappedOr] at hglobal
        simp only [isShared, IPv6.laterMappedOr, IPv6.mappedOr] at hshared
        apply IPv6.blocked_of_private
        cases consistent with
        | false => simpa using hglobal
        | true =>
            cases hmapped : IPv6.ipv4Mapped a with
            | none => simpa [hmapped] using hglobal
            | some b =>
                have hnot : ¬ IPv4.sharedNetwork.Contains b := by simpa [hmapped] using hshared
                have hprivate : IPv4.isPrivate b = true := by
                  simpa [hmapped, IPv4.isGlobal, hnot] using hglobal
                simpa [IPv6.isPrivate, IPv6.mappedOr, hmapped] using hprivate
  · cases a with
    | v4 a => exact IPv4.blocked_of_multicast hmulticast
    | v6 a => exact IPv6.blocked_of_multicast hmulticast

theorem not_blocked_of_shared (hshared : a.isShared consistent = true) :
    (a.flags consistent).isBlocked = false := by
  cases a with
  | v4 a => exact IPv4.not_blocked_of_shared (of_decide_eq_true hshared)
  | v6 a =>
      cases consistent with
      | false => cases hshared
      | true =>
          cases hmapped : IPv6.ipv4Mapped a with
          | none => simp [isShared, IPv6.laterMappedOr, IPv6.mappedOr, hmapped] at hshared
          | some b =>
              have hb : IPv4.sharedNetwork.Contains b := by
                simpa [isShared, IPv6.laterMappedOr, IPv6.mappedOr, hmapped] using hshared
              exact (IPv6.isBlocked_of_mapped hmapped).trans (IPv4.not_blocked_of_shared hb)

theorem not_public_of_shared (hshared : a.isShared consistent = true) :
    a.isPublic consistent = false := by
  have hglobal : a.isGlobal consistent = false := by
    cases a with
    | v4 a =>
        have ha : IPv4.sharedNetwork.Contains a := of_decide_eq_true hshared
        simp [isGlobal, IPv4.isGlobal, ha]
    | v6 a =>
        cases consistent with
        | false => cases hshared
        | true =>
            cases hmapped : IPv6.ipv4Mapped a with
            | none => simp [isShared, IPv6.laterMappedOr, IPv6.mappedOr, hmapped] at hshared
            | some b =>
                have hb : IPv4.sharedNetwork.Contains b := by
                  simpa [isShared, IPv6.laterMappedOr, IPv6.mappedOr, hmapped] using hshared
                simp [isGlobal, IPv6.isGlobal, IPv6.laterMappedOr, IPv6.mappedOr, hmapped,
                  IPv4.isGlobal, hb]
  unfold isPublic
  rw [hglobal, Bool.false_and]

theorem not_blocked_of_public (hpublic : a.isPublic consistent = true)
    (hreserved : (a.flags consistent).isReserved = false) :
    (a.flags consistent).isBlocked = false := by
  unfold isPublic at hpublic
  rw [Bool.and_eq_true, Bool.not_eq_true'] at hpublic
  obtain ⟨hglobal, hmulticast⟩ := hpublic
  cases a with
  | v4 a =>
      simp only [isGlobal, IPv4.isGlobal, Bool.and_eq_true, Bool.not_eq_true'] at hglobal
      exact IPv4.not_blocked_of_not_private hglobal.2 hmulticast hreserved
  | v6 a =>
      cases hmapped : IPv6.ipv4Mapped a with
      | none =>
          have hprivate : IPv6.isPrivate a = false := by
            simpa [isGlobal, IPv6.isGlobal, IPv6.laterMappedOr, IPv6.mappedOr, hmapped] using
              hglobal
          exact IPv6.not_blocked_of_not_private hmapped hprivate hmulticast hreserved
      | some b =>
          cases consistent with
          | false =>
              -- its own table reserves it
              have hcovers := IPv6.covers_reserved_of_mapped hmapped
              simp [flags, IPv6.flags, IPv6.isReserved, IPv6.laterMappedOr, hcovers] at hreserved
          | true =>
              have hb : ¬ IPv4.sharedNetwork.Contains b ∧ IPv4.isPrivate b = false := by
                simpa [isGlobal, IPv6.isGlobal, IPv6.laterMappedOr, IPv6.mappedOr, hmapped,
                  IPv4.isGlobal] using hglobal
              have hclear : (IPv4.flags b).isBlocked = false := by
                apply IPv4.not_blocked_of_not_private hb.2
                · simpa [flags, IPv6.flags, IPv6.isMulticast, IPv6.laterMappedOr, IPv6.mappedOr,
                    hmapped] using hmulticast
                · simpa [flags, IPv6.flags, IPv6.isReserved, IPv6.laterMappedOr, IPv6.mappedOr,
                    hmapped] using hreserved
              exact (IPv6.isBlocked_of_mapped hmapped).trans hclear

/-- What the code lets pass: the public addresses outside the reserved
blocks, and the shared space. -/
theorem not_blocked_iff : (a.flags consistent).isBlocked = false ↔
    (a.isPublic consistent = true ∧ (a.flags consistent).isReserved = false) ∨
      a.isShared consistent = true := by
  constructor
  · intro hclear
    by_cases hshared : a.isShared consistent = true
    · exact Or.inr hshared
    · refine Or.inl ⟨?_, ?_⟩
      · by_contra hpublic
        rw [blocked_of_not_public (by simpa using hpublic) (by simpa using hshared)] at hclear
        cases hclear
      · simp only [IpAddress.isBlocked, Bool.or_eq_false_iff] at hclear
        exact hclear.1.2
  · rintro (⟨hpublic, hreserved⟩ | hshared)
    · exact not_blocked_of_public hpublic hreserved
    · exact not_blocked_of_shared hshared

end Address

/-! ## The URLs that pass -/

/-- The runtime whose addresses are read by `parse`. -/
def addressRuntime (urlparse : String → Except Exc ParsedUrl) (parse : String → Option Address)
    (consistent : Bool) : UrlRuntime where
  urlparse := urlparse
  ipAddress := fun text => (parse text).map (Address.flags consistent)

section Urls

variable (consistent : Bool) (urlparse : String → Except Exc ParsedUrl)
  (parse : String → Option Address) (settings : Settings) (getaddrinfo : GetAddrInfo)

/-- The look-up that belongs to a URL. -/
def ResolvesTo (url : String) (addresses : List String) : Prop :=
  ∃ parsed port, urlparse url = .ok parsed ∧ parsed.port = .ok port ∧
    getaddrinfo (parsed.hostname.getD "") (portOrDefault port) = .ok addresses

/-- A URL one of whose addresses is not a public one is rejected. -/
def OnlyPublicPass (url : String) : Prop :=
  ∀ addresses, ResolvesTo urlparse getaddrinfo url addresses →
    (∃ text ∈ addresses, ∃ a, parse text = some a ∧ a.isPublic consistent = false) →
    validateDeliveryUrlForRequest (addressRuntime urlparse parse consistent) settings getaddrinfo
      url ≠ .ok ()

/-- The code lets the address pass. -/
def Passable (a : Address) : Prop :=
  (a.isPublic consistent = true ∧ (a.flags consistent).isReserved = false) ∨
    a.isShared consistent = true

/-- An acceptable URL whose addresses all pass, one of them a shared one. -/
def LeadsToShared (url : String) : Prop :=
  validateDeliveryUrl (addressRuntime urlparse parse consistent) settings url = .ok () ∧
    ∃ addresses, ResolvesTo urlparse getaddrinfo url addresses ∧
      (∀ text ∈ addresses, ∃ a, parse text = some a ∧ Passable consistent a) ∧
      ∃ text ∈ addresses, ∃ a, parse text = some a ∧ a.isShared consistent = true

variable {consistent urlparse parse settings getaddrinfo}

theorem isBlockedIp_eq_ok_false_iff {text : String} :
    isBlockedIp (addressRuntime urlparse parse consistent) text = .ok false ↔
      ∃ a, parse text = some a ∧ Passable consistent a := by
  unfold isBlockedIp
  cases hparse : parse text with
  | none => simp [addressRuntime, hparse]
  | some a =>
      simp only [addressRuntime, hparse, Option.map_some, Except.ok.injEq, Option.some.injEq,
        exists_eq_left']
      exact Address.not_blocked_iff

theorem resolvesTo_unique {url : String} {first second : List String}
    (hfirst : ResolvesTo urlparse getaddrinfo url first)
    (hsecond : ResolvesTo urlparse getaddrinfo url second) : first = second := by
  obtain ⟨parsed, port, hparsed, hport, hlooked⟩ := hfirst
  obtain ⟨parsed', port', hparsed', hport', hlooked'⟩ := hsecond
  rw [hparsed, Except.ok.injEq] at hparsed'
  subst hparsed'
  rw [hport, Except.ok.injEq] at hport'
  subst hport'
  rw [hlooked, Except.ok.injEq] at hlooked'
  exact hlooked'

theorem onlyPublicPass_iff (hsecure : settings.allowInsecureDeliveryUrls = false) {url : String} :
    OnlyPublicPass consistent urlparse parse settings getaddrinfo url ↔
      ¬ LeadsToShared consistent urlparse parse settings getaddrinfo url := by
  constructor
  · rintro hpass ⟨hvalid, addresses, hresolves, hall, text, htext, a, hparse, hshared⟩
    refine hpass addresses hresolves
      ⟨text, htext, a, hparse, Address.not_public_of_shared hshared⟩ ?_
    rw [validateDeliveryUrlForRequest_eq_ok_iff hsecure]
    refine ⟨addresses, ⟨hvalid, hresolves⟩, ?_⟩
    intro address haddress
    exact isBlockedIp_eq_ok_false_iff.mpr (hall address haddress)
  · rintro hnot addresses hresolves ⟨text, htext, a, hparse, hpublic⟩ hok
    rw [validateDeliveryUrlForRequest_eq_ok_iff hsecure] at hok
    obtain ⟨looked, ⟨hvalid, hlooked⟩, hclear⟩ := hok
    have hsame := resolvesTo_unique hresolves hlooked
    subst hsame
    have hall : ∀ text ∈ addresses, ∃ a, parse text = some a ∧ Passable consistent a :=
      fun text htext => isBlockedIp_eq_ok_false_iff.mp (hclear text htext)
    refine hnot ⟨hvalid, addresses, hresolves, hall, text, htext, a, hparse, ?_⟩
    -- it passes and is not public
    obtain ⟨a', hparse', hpassable⟩ := hall text htext
    rw [hparse, Option.some.injEq] at hparse'
    subst hparse'
    rcases hpassable with ⟨hpublic', _⟩ | hshared
    · rw [hpublic] at hpublic'
      cases hpublic'
    · exact hshared

variable (consistent urlparse parse settings getaddrinfo) in
/-- An address that is not public is blocked exactly when it is not in the
shared space, and a URL with such an address is rejected exactly when it does
not lead to the shared space. -/
theorem rejects_nonpublic_iff (hsecure : settings.allowInsecureDeliveryUrls = false) :
    (∀ a : Address, (a.isPublic consistent = false → (a.flags consistent).isBlocked = true) ↔
      a.isShared consistent = false) ∧
    ∀ url, OnlyPublicPass consistent urlparse parse settings getaddrinfo url ↔
      ¬ LeadsToShared consistent urlparse parse settings getaddrinfo url := by
  constructor
  · intro a
    constructor
    · intro hblocked
      by_contra hshared
      rw [Bool.not_eq_false] at hshared
      have hclear := Address.not_blocked_of_shared hshared
      rw [hblocked (Address.not_public_of_shared hshared)] at hclear
      cases hclear
    · intro hshared hpublic
      exact Address.blocked_of_not_public hpublic hshared
  · intro url
    exact onlyPublicPass_iff hsecure

/-! ## A host in the shared space -/

def relayUrlparse : String → Except Exc ParsedUrl := fun url =>
  if url = "https://relay.example.com/in" then
    .ok { scheme := "https", hostname := some "relay.example.com" }
  else .error ⟨"ValueError", url⟩

def relayParse : String → Option Address := fun text =>
  if text = "100.64.0.1" then some (.v4 (IPv4.bits 100 64 0 1))
  else if text = "10.0.0.1" then some (.v4 (IPv4.bits 10 0 0 1))
  else none

/-- A resolver that has one address for every host. -/
def resolverOf (address : String) : GetAddrInfo := fun _ _ => .ok [address]

/-- 100.64.0.1, behind a carrier's address translation, is neither globally
reachable nor blocked, and a URL that resolves to it passes. -/
theorem shared_address_passes :
    (¬ ∀ (consistent : Bool) (a : Address),
      a.isGlobal consistent = false ∨ (a.flags consistent).isMulticast = true →
      (a.flags consistent).isBlocked = true) ∧
    ¬ OnlyPublicPass true relayUrlparse relayParse {} (resolverOf "100.64.0.1")
      "https://relay.example.com/in" := by
  have hglobal : (Address.v4 (IPv4.bits 100 64 0 1)).isGlobal true = false := by decide
  have hclear : ((Address.v4 (IPv4.bits 100 64 0 1)).flags true).isBlocked = false := by decide
  have hpublic : (Address.v4 (IPv4.bits 100 64 0 1)).isPublic true = false := by decide
  have hpasses : validateDeliveryUrlForRequest (addressRuntime relayUrlparse relayParse true) {}
      (resolverOf "100.64.0.1") "https://relay.example.com/in" = .ok () := by decide +kernel
  constructor
  · intro h
    rw [h true _ (Or.inl hglobal)] at hclear
    cases hclear
  · intro hpass
    exact hpass ["100.64.0.1"] ⟨_, _, rfl, rfl, rfl⟩
      ⟨"100.64.0.1", List.mem_singleton_self _, _, rfl, hpublic⟩ hpasses

/-- A URL that resolves to 10.0.0.1 is rejected. -/
theorem rejects_private_relay :
    OnlyPublicPass true relayUrlparse relayParse {} (resolverOf "10.0.0.1")
      "https://relay.example.com/in" := by
  apply ((rejects_nonpublic_iff true relayUrlparse relayParse {} (resolverOf "10.0.0.1") rfl).2
    "https://relay.example.com/in").mpr
  rintro ⟨_, addresses, ⟨_, _, _, _, hlooked⟩, _, text, htext, a, hparse, hshared⟩
  rw [← Except.ok.inj hlooked, List.mem_singleton] at htext
  subst htext
  have ha : a = .v4 (IPv4.bits 10 0 0 1) := (Option.some.inj hparse).symm
  subst ha
  revert hshared
  decide

end Urls

end WebhookRelay
