import WebhookRelay.Core.Models
import WebhookRelay.Foundation.SortedSet

/-!
# The sliding window rate limiter

`app/core/rate_limiter.py`. `pipeline` is the transaction of `allow_request`,
which reads the clock before it sends the transaction: the two instants are
different arguments.

The pipeline adds a member whatever the count was. `every_call_counts` is what
follows for calls made one after the other: each is measured against every call of the
minute before it, and not only against those that were allowed.
-/

namespace WebhookRelay.Limits

open Foundation

def windowMs : Time := 60000

/-- The sorted set at `rl:{key}`; the scores are milliseconds. -/
abbrev WindowKey := Cell Time (SortedSet Time UUID)

/-- `now * 1000`, the score of a call that read the clock at `now`. -/
def millis (now : Time) : Time := now * 1000

section Methods

variable (settings : Settings) (maxRpm : Option ℤ)

def limitOf : ℤ := maxRpm.getD settings.rateLimitRpm

/-- The four commands, executed at the server's instant `executed` for a call
that read the clock at `now`: the reply of `ZCARD`, and the key afterwards. -/
def pipeline (member : UUID) (now executed : Time) (key : WindowKey) : ℕ × WindowKey :=
  let windowStart := millis now - windowMs
  let members := (key.members executed).removeRangeByScore 0 windowStart
  (members.length, ⟨some (members.add member (millis now), some (executed + 60))⟩)

/-- `allow_request`; `member` is its `uuid4()`. -/
def allowRequest (member : UUID) (now executed : Time) (key : WindowKey) : Bool × WindowKey :=
  let limit := limitOf settings maxRpm
  if limit ≤ 0 then (false, key)
  else
    let (count, key) := pipeline member now executed key
    (count < limit, key)

end Methods

theorem pipeline_eq {member : UUID} {now executed : Time} {key : WindowKey}
    {members : SortedSet Time UUID}
    (h : (key.members executed).removeRangeByScore 0 (millis now - windowMs) = members) :
    pipeline member now executed key =
      (members.length, ⟨some (members.add member (millis now), some (executed + 60))⟩) := by
  unfold pipeline
  dsimp only
  rw [h]

theorem allowRequest_of_pos {settings : Settings} {maxRpm : Option ℤ}
    (hlimit : 1 ≤ limitOf settings maxRpm) (member : UUID) (now executed : Time) (key : WindowKey) :
    allowRequest settings maxRpm member now executed key =
      (decide (((pipeline member now executed key).1 : ℤ) < limitOf settings maxRpm),
        (pipeline member now executed key).2) := by
  unfold allowRequest
  exact if_neg (by omega)

/-! ## One call after the other -/

/-- A call of `allow_request` and the instant it is made. -/
structure Call where
  member : UUID
  now : Time
  deriving DecidableEq

/-- The clock of a sequence of calls, and their `uuid4()`s. -/
structure Timed (calls : List Call) : Prop where
  sorted : calls.Pairwise (fun c d => c.now ≤ d.now)
  epoch : ∀ c ∈ calls, 0 ≤ c.now
  fresh : (calls.map Call.member).Nodup

def Call.entry (c : Call) : UUID × Time := (c.member, millis c.now)

/-- The calls of the minute before `now`. -/
def recent (now : Time) (calls : List Call) : List Call := calls.filter (fun c => now - 60 < c.now)

def keyAfter (calls : List Call) : WindowKey :=
  calls.foldl (fun key c => (pipeline c.member c.now c.now key).2) .empty

theorem keyAfter_snoc (calls : List Call) (c : Call) :
    keyAfter (calls ++ [c]) = (pipeline c.member c.now c.now (keyAfter calls)).2 := by
  unfold keyAfter
  rw [List.foldl_append]
  rfl

theorem Timed.of_sublist {calls kept : List Call} (h : Timed calls) (hsub : kept.Sublist calls) :
    Timed kept :=
  ⟨h.sorted.sublist hsub, fun c hc => h.epoch c (hsub.subset hc), h.fresh.sublist (hsub.map _)⟩

/-- Nothing of the past is dropped by an earlier look at the window. -/
theorem recent_recent {now later : Time} (h : now ≤ later) (calls : List Call) :
    recent later (recent now calls) = recent later calls := by
  unfold recent
  rw [List.filter_filter]
  apply List.filter_congr
  intro c _
  by_cases hlater : later - 60 < c.now
  · have hnow : now - 60 < c.now := by linarith
    simp [hlater, hnow]
  · simp [hlater]

theorem recent_append (now : Time) (calls calls' : List Call) :
    recent now (calls ++ calls') = recent now calls ++ recent now calls' :=
  List.filter_append ..

theorem recent_eq_nil {now : Time} {calls : List Call} (h : ∀ c ∈ calls, c.now ≤ now - 60) :
    recent now calls = [] := by
  unfold recent
  rw [List.filter_eq_nil_iff]
  intro c hc
  simpa using h c hc

/-- `ZREMRANGEBYSCORE` leaves the entries of the last minute. -/
theorem removeRangeByScore_entries {now : Time} {calls : List Call} (h : ∀ c ∈ calls, 0 ≤ c.now) :
    SortedSet.removeRangeByScore 0 (millis now - windowMs) (calls.map Call.entry) =
      (recent now calls).map Call.entry := by
  unfold SortedSet.removeRangeByScore recent
  rw [List.filter_map]
  congr 1
  apply List.filter_congr
  intro c hc
  have hpos := h c hc
  have hscore : 0 ≤ c.entry.2 := by
    show 0 ≤ c.now * 1000
    linarith
  have hwindow : millis now - windowMs < c.entry.2 ↔ now - 60 < c.now := by
    show now * 1000 - 60000 < c.now * 1000 ↔ _
    constructor <;> intro h <;> linarith
  simp [hscore, hwindow]

/-- After a sequence of calls, and at any later instant, the window holds
exactly the calls of the minute before. The key's expiry takes nothing that
the window would not. -/
theorem window_after {calls : List Call} (h : Timed calls) {now : Time}
    (hlater : ∀ c ∈ calls, c.now ≤ now) :
    ((keyAfter calls).members now).removeRangeByScore 0 (millis now - windowMs) =
      (recent now calls).map Call.entry := by
  induction calls using List.reverseRecOn generalizing now with
  | nil => rfl
  | append_singleton calls c ih =>
      have hcalls := h.of_sublist (List.sublist_append_left calls [c])
      have hbefore : ∀ d ∈ calls, d.now ≤ c.now := by
        intro d hd
        exact (List.pairwise_append.mp h.sorted).2.2 d hd c (List.mem_singleton_self c)
      have hc : c.now ≤ now := hlater c (List.mem_append_right _ (List.mem_singleton_self c))
      have hfresh : c.member ∉ ((recent c.now calls).map Call.entry).map Prod.fst := by
        rw [List.map_map]
        intro hmem
        obtain ⟨d, hd, heq⟩ := List.mem_map.mp hmem
        have hnodup := h.fresh
        rw [List.map_append, List.nodup_append] at hnodup
        exact hnodup.2.2 d.member (List.mem_map_of_mem (List.mem_of_mem_filter hd)) c.member
          (List.mem_singleton_self _) heq
      have hkey : keyAfter (calls ++ [c]) =
          ⟨some ((recent c.now calls ++ [c]).map Call.entry, some (c.now + 60))⟩ := by
        rw [keyAfter_snoc, pipeline_eq (ih hcalls hbefore), SortedSet.add_of_fresh hfresh,
          List.map_append]
        rfl
      rw [hkey, Cell.members_expiring, recent_append]
      split
      · rename_i halive
        have hepoch : ∀ d ∈ recent c.now calls ++ [c], 0 ≤ d.now := by
          intro d hd
          apply h.epoch d
          rcases List.mem_append.mp hd with hd | hd
          · exact List.mem_append_left _ (List.mem_of_mem_filter hd)
          · exact List.mem_append_right _ hd
        rw [removeRangeByScore_entries hepoch, recent_append, recent_recent hc]
      · rename_i hexpired
        -- the key is gone, and so is every call from the window
        have hold : ∀ d ∈ calls ++ [c], d.now ≤ now - 60 := by
          intro d hd
          have hdc : d.now ≤ c.now := by
            rcases List.mem_append.mp hd with hd | hd
            · exact hbefore d hd
            · exact (congrArg Call.now (List.mem_singleton.mp hd)).le
          linarith [not_lt.mp hexpired]
        rw [← recent_append, recent_eq_nil hold]
        rfl

section Replies

variable (settings : Settings) (maxRpm : Option ℤ)

/-- Each call with its result. -/
def repliesFrom : WindowKey → List Call → List (Call × Bool)
  | _, [] => []
  | key, c :: rest =>
      let (allowed, key) := allowRequest settings maxRpm c.member c.now c.now key
      (c, allowed) :: repliesFrom key rest

def replies (calls : List Call) : List (Call × Bool) := repliesFrom settings maxRpm .empty calls

variable {settings maxRpm} {calls earlier : List Call} {c : Call}

/-- The results of a sequence of calls do not depend on what is called later. -/
theorem repliesFrom_append (key : WindowKey) (hlimit : 1 ≤ limitOf settings maxRpm)
    (calls calls' : List Call) :
    repliesFrom settings maxRpm key (calls ++ calls') =
      repliesFrom settings maxRpm key calls ++
        repliesFrom settings maxRpm
          (calls.foldl (fun key c => (pipeline c.member c.now c.now key).2) key) calls' := by
  induction calls generalizing key with
  | nil => rfl
  | cons c rest ih =>
      simp only [List.cons_append, repliesFrom, List.foldl_cons, allowRequest_of_pos hlimit]
      rw [ih]

theorem map_fst_repliesFrom (key : WindowKey) (calls : List Call) :
    (repliesFrom settings maxRpm key calls).map Prod.fst = calls := by
  induction calls generalizing key with
  | nil => rfl
  | cons c rest ih =>
      rw [repliesFrom, List.map_cons, ih]

/-- Fewer calls than the limit were made in the minute before. -/
def HasRoom (settings : Settings) (maxRpm : Option ℤ) (earlier : List Call) (now : Time) : Prop :=
  ((recent now earlier).length : ℤ) < limitOf settings maxRpm

instance (earlier : List Call) (now : Time) : Decidable (HasRoom settings maxRpm earlier now) :=
  inferInstanceAs (Decidable (_ < _))

/-- A call is allowed exactly when there is room among the calls before it. -/
theorem allowRequest_keyAfter (hlimit : 1 ≤ limitOf settings maxRpm) (h : Timed (earlier ++ [c])) :
    allowRequest settings maxRpm c.member c.now c.now (keyAfter earlier) =
      (decide (HasRoom settings maxRpm earlier c.now), keyAfter (earlier ++ [c])) := by
  have hbefore : ∀ d ∈ earlier, d.now ≤ c.now := by
    intro d hd
    exact (List.pairwise_append.mp h.sorted).2.2 d hd c (List.mem_singleton_self c)
  have hwindow := window_after (h.of_sublist (List.sublist_append_left earlier [c])) hbefore
  have hcount : (pipeline c.member c.now c.now (keyAfter earlier)).1 =
      (recent c.now earlier).length := by
    rw [pipeline_eq hwindow, List.length_map]
  rw [allowRequest_of_pos hlimit, keyAfter_snoc, hcount]
  rfl

theorem replies_snoc (hlimit : 1 ≤ limitOf settings maxRpm) (h : Timed (earlier ++ [c])) :
    replies settings maxRpm (earlier ++ [c]) =
      replies settings maxRpm earlier ++ [(c, decide (HasRoom settings maxRpm earlier c.now))] := by
  unfold replies
  rw [repliesFrom_append _ hlimit]
  congr 1
  show [(c, (allowRequest settings maxRpm c.member c.now c.now (keyAfter earlier)).1)] = _
  rw [allowRequest_keyAfter hlimit h]

/-- What is called later has no say in it. -/
theorem mem_replies_iff (hlimit : 1 ≤ limitOf settings maxRpm) {later : List Call}
    (h : Timed (earlier ++ c :: later)) (allowed : Bool) :
    (c, allowed) ∈ replies settings maxRpm (earlier ++ c :: later) ↔
      allowed = decide (HasRoom settings maxRpm earlier c.now) := by
  have hsplit : earlier ++ c :: later = (earlier ++ [c]) ++ later := by simp
  have hnodup := h.fresh
  rw [List.map_append, List.map_cons, List.nodup_append, List.nodup_cons] at hnodup
  obtain ⟨_, ⟨hlater, _⟩, hearlier⟩ := hnodup
  have hnot : ∀ (key : WindowKey) (others : List Call), c.member ∉ others.map Call.member →
      (c, allowed) ∉ repliesFrom settings maxRpm key others := by
    intro key others hothers hmem
    have hc := List.mem_map_of_mem (f := Prod.fst) hmem
    rw [map_fst_repliesFrom] at hc
    exact hothers (List.mem_map_of_mem hc)
  have hnotEarlier : c.member ∉ earlier.map Call.member :=
    fun hmem => hearlier _ hmem _ List.mem_cons_self rfl
  have hsnoc := replies_snoc hlimit (h.of_sublist (hsplit ▸ List.sublist_append_left _ later))
  rw [hsplit]
  unfold replies at hsnoc ⊢
  rw [repliesFrom_append _ hlimit, hsnoc, List.mem_append, List.mem_append]
  constructor
  · rintro ((hmem | hmem) | hmem)
    · exact absurd hmem (hnot _ earlier hnotEarlier)
    · exact congrArg Prod.snd (List.mem_singleton.mp hmem)
    · exact absurd hmem (hnot _ later hlater)
  · rintro rfl
    exact Or.inl (Or.inr (List.mem_singleton_self _))

/-- What comes before an element in a part of a list came before it. -/
theorem sublist_before {α : Type} {before after earlier later : List α} {a : α}
    (nodup : (earlier ++ a :: later).Nodup)
    (h : (before ++ a :: after).Sublist (earlier ++ a :: later)) : before.Sublist earlier := by
  induction earlier generalizing before with
  | nil =>
      have hlater : a ∉ later := (List.nodup_cons.mp nodup).1
      rcases before with _ | ⟨b, rest⟩
      · exact List.Sublist.refl _
      · have hmem : a ∈ rest ++ a :: after := List.mem_append_right _ List.mem_cons_self
        exact absurd (h.of_cons_cons.subset hmem) hlater
  | cons e earlier ih =>
      rw [List.cons_append, List.nodup_cons] at nodup
      rcases before with _ | ⟨b, rest⟩
      · exact List.nil_sublist _
      · cases h with
        | cons _ h => exact (ih nodup.2 h).cons e
        | cons_cons _ h => exact (ih nodup.2 h).cons_cons e

/-- With fewer calls around it, an allowed call stays allowed. -/
theorem allowed_of_sublist (hlimit : 1 ≤ limitOf settings maxRpm) {kept : List Call}
    (h : Timed calls) (hsub : kept.Sublist calls) (hc : c ∈ kept)
    (hallowed : (c, true) ∈ replies settings maxRpm calls) :
    (c, true) ∈ replies settings maxRpm kept := by
  obtain ⟨earlier, later, rfl⟩ := List.append_of_mem (hsub.subset hc)
  obtain ⟨before, after, rfl⟩ := List.append_of_mem hc
  have hbefore : before.Sublist earlier := sublist_before h.fresh.of_map hsub
  rw [mem_replies_iff hlimit h, eq_comm, decide_eq_true_eq] at hallowed
  rw [mem_replies_iff hlimit (h.of_sublist hsub), eq_comm, decide_eq_true_eq]
  have hle : (recent c.now before).length ≤ (recent c.now earlier).length :=
    (hbefore.filter _).length_le
  unfold HasRoom at *
  omega

/-! ### What a denied call costs -/

/-- Denied calls leave no trace: the others get the same results without them,
and only allowed calls are counted. -/
def DeniedFree (settings : Settings) (maxRpm : Option ℤ) (calls : List Call) : Prop :=
  (∀ kept, kept.Sublist calls →
    (∀ c ∈ calls, c ∉ kept → (c, false) ∈ replies settings maxRpm calls) →
    ∀ c ∈ kept, ∀ allowed, (c, allowed) ∈ replies settings maxRpm calls ↔
      (c, allowed) ∈ replies settings maxRpm kept) ∧
  ∀ earlier c later, calls = earlier ++ c :: later →
    ((c, true) ∈ replies settings maxRpm calls ↔
      (((recent c.now earlier).filter
        (fun d => (d, true) ∈ replies settings maxRpm calls)).length : ℤ) < limitOf settings maxRpm)

/-- A call is allowed exactly when fewer calls than the limit, allowed or not,
were made in the minute before; and without some of the others every allowed
call is still allowed. -/
theorem every_call_counts (hlimit : 1 ≤ limitOf settings maxRpm) (h : Timed calls) :
    (∀ earlier c later, calls = earlier ++ c :: later →
      ((c, true) ∈ replies settings maxRpm calls ↔ HasRoom settings maxRpm earlier c.now)) ∧
    ∀ kept, kept.Sublist calls → ∀ c ∈ kept, (c, true) ∈ replies settings maxRpm calls →
      (c, true) ∈ replies settings maxRpm kept := by
  constructor
  · rintro earlier c later rfl
    rw [mem_replies_iff hlimit h, eq_comm, decide_eq_true_eq]
  · intro kept hsub c hc hallowed
    exact allowed_of_sublist hlimit h hsub hc hallowed

end Replies

/-- One call a minute: the first is allowed, the second, half a minute later,
is not. -/
def halfMinutes : List Call := [⟨1, 0⟩, ⟨2, 30⟩, ⟨3, 60⟩]

theorem timed_halfMinutes : Timed halfMinutes := by
  constructor <;> decide +kernel

theorem every_call_counts_halfMinutes :
    ((⟨3, 60⟩, true) ∈ replies {} (some 1) halfMinutes ↔
        HasRoom {} (some 1) [⟨1, 0⟩, ⟨2, 30⟩] 60) ∧
      (⟨1, 0⟩, true) ∈ replies {} (some 1) [⟨1, 0⟩] := by
  have hone : 1 ≤ limitOf {} (some 1) := by decide
  have h := every_call_counts hone timed_halfMinutes
  exact ⟨h.1 [⟨1, 0⟩, ⟨2, 30⟩] ⟨3, 60⟩ [] rfl,
    h.2 [⟨1, 0⟩] (by decide) ⟨1, 0⟩ (List.mem_singleton_self _) (by decide +kernel)⟩

/-- Without the second call, the third is allowed. -/
theorem denied_call_costs :
    ¬ ∀ settings maxRpm calls, 1 ≤ limitOf settings maxRpm → Timed calls →
      DeniedFree settings maxRpm calls := by
  intro h
  have hfree := (h {} (some 1) halfMinutes (by decide) timed_halfMinutes).1
  have hkept := hfree [⟨1, 0⟩, ⟨3, 60⟩] (by decide) (by decide +kernel) ⟨3, 60⟩ (by decide) true
  have hwithout : (⟨3, 60⟩, true) ∈ replies {} (some 1) [⟨1, 0⟩, ⟨3, 60⟩] := by decide +kernel
  have hwith : (⟨3, 60⟩, true) ∉ replies {} (some 1) halfMinutes := by decide +kernel
  exact hwith (hkept.mpr hwithout)

end WebhookRelay.Limits
