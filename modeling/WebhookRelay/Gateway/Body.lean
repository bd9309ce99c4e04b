import WebhookRelay.Foundation.Machine
import WebhookRelay.Gateway.Handler

/-!
# Reading the body

`_read_limited_body` asks for the size of what it has after every chunk. What
it answers depends on the bytes of the stream alone: on their concatenation,
not on where the chunks begin. The loop is also given as a machine, one move
for each chunk taken and one for each test, for what its buffer holds in
between.
-/

namespace WebhookRelay.Gateway

open Foundation

/-! ## What is answered -/

theorem readLimitedBody_eq (settings : Settings) (start : Bytes) (chunks : List Bytes)
    (hstart : start.length ≤ settings.maxWebhookBodyBytes) :
    readLimitedBody settings start chunks =
      if (start ++ chunks.flatten).length ≤ settings.maxWebhookBodyBytes then
        .ok (start ++ chunks.flatten)
      else .error (.http 413 "request body too large") := by
  induction chunks generalizing start with
  | nil =>
      rw [List.flatten_nil, List.append_nil, if_pos hstart]
      rfl
  | cons chunk rest ih =>
      rw [readLimitedBody, List.flatten_cons, ← List.append_assoc]
      by_cases hlarge : settings.maxWebhookBodyBytes < (start ++ chunk).length
      · -- what is still to come only adds to a buffer that is too large
        have hmore : ¬ (start ++ chunk ++ rest.flatten).length ≤ settings.maxWebhookBodyBytes := by
          rw [List.length_append]
          omega
        rw [if_pos hlarge, if_neg hmore]
      · rw [if_neg hlarge]
        exact ih (start ++ chunk) (Nat.le_of_not_lt hlarge)

/-! ## The loop -/

inductive BodyPhase where
  /-- At `async for chunk in request.stream()`. -/
  | receiving
  /-- At `if len(body) > settings.max_webhook_body_bytes`. -/
  | testing
  | ended (result : Except Rejection Bytes)

structure BodyState where
  body : Bytes := []
  stream : List Bytes
  phase : BodyPhase := .receiving

def bodyStep (settings : Settings) (s : BodyState) : Option BodyState :=
  match s.phase with
  | .receiving =>
      match s.stream with
      | [] => some { s with phase := .ended (.ok s.body) }
      | chunk :: rest => some { body := s.body ++ chunk, stream := rest, phase := .testing }
  | .testing =>
      if settings.maxWebhookBodyBytes < s.body.length then
        some { s with phase := .ended (.error (.http 413 "request body too large")) }
      else some { s with phase := .receiving }
  | .ended _ => none

def bodyLoop (settings : Settings) (chunks : List Bytes) : Machine BodyState Unit where
  init := fun s => s = { stream := chunks }
  next := fun s _ => bodyStep settings s

theorem bodyStep_cases {settings : Settings} {s t : BodyState} (h : bodyStep settings s = some t) :
    (s.phase = .receiving ∧ s.stream = [] ∧ t = { s with phase := .ended (.ok s.body) }) ∨
    (∃ chunk rest, s.phase = .receiving ∧ s.stream = chunk :: rest ∧
      t = { body := s.body ++ chunk, stream := rest, phase := .testing }) ∨
    (s.phase = .testing ∧ settings.maxWebhookBodyBytes < s.body.length ∧
      t = { s with phase := .ended (.error (.http 413 "request body too large")) }) ∨
    (s.phase = .testing ∧ s.body.length ≤ settings.maxWebhookBodyBytes ∧
      t = { s with phase := .receiving }) := by
  unfold bodyStep at h
  split at h
  · rename_i hphase
    split at h
    · rename_i hstream
      cases h
      exact Or.inl ⟨hphase, hstream, rfl⟩
    · rename_i chunk rest hstream
      cases h
      exact Or.inr (Or.inl ⟨chunk, rest, hphase, hstream, rfl⟩)
  · rename_i hphase
    split at h
    · rename_i hlarge
      cases h
      exact Or.inr (Or.inr (Or.inl ⟨hphase, hlarge, rfl⟩))
    · rename_i hsmall
      cases h
      exact Or.inr (Or.inr (Or.inr ⟨hphase, Nat.le_of_not_lt hsmall, rfl⟩))
  · cases h

/-- What the loop has still to answer: `readLimitedBody` of what is left,
with the test of a chunk just taken first. -/
def answer (settings : Settings) (s : BodyState) : Except Rejection Bytes :=
  match s.phase with
  | .receiving => readLimitedBody settings s.body s.stream
  | .testing =>
      if settings.maxWebhookBodyBytes < s.body.length then
        .error (.http 413 "request body too large")
      else readLimitedBody settings s.body s.stream
  | .ended result => result

theorem answer_step {settings : Settings} {s t : BodyState} (h : bodyStep settings s = some t) :
    answer settings t = answer settings s := by
  obtain ⟨hphase, hstream, rfl⟩ | ⟨chunk, rest, hphase, hstream, rfl⟩ | ⟨hphase, hlarge, rfl⟩ |
    ⟨hphase, hsmall, rfl⟩ := bodyStep_cases h
  · simp only [answer, hphase, hstream]
    rfl
  · simp only [answer, hphase, hstream]
    rfl
  · simp only [answer, hphase, if_pos hlarge]
  · simp only [answer, hphase, if_neg (Nat.not_lt.mpr hsmall)]

theorem answer_reachable {settings : Settings} {chunks : List Bytes} {s : BodyState}
    (hs : (bodyLoop settings chunks).Reachable s) :
    answer settings s = readLimitedBody settings [] chunks := by
  induction hs with
  | start hinit =>
      subst hinit
      rfl
  | step _ hstep ih => rw [answer_step hstep, ih]

/-- The loop reaches an end, whatever the stream still delivers. -/
theorem exists_ended {settings : Settings} {chunks : List Bytes} {s : BodyState}
    (hs : (bodyLoop settings chunks).Reachable s) (hphase : s.phase = .receiving) :
    ∃ t result, (bodyLoop settings chunks).Reachable t ∧ t.phase = .ended result := by
  obtain ⟨body, stream, phase⟩ := s
  obtain rfl : phase = .receiving := hphase
  induction stream generalizing body with
  | nil => exact ⟨_, _, hs.step (a := ()) rfl, rfl⟩
  | cons chunk rest ih =>
      have htaken : (bodyLoop settings chunks).Reachable ⟨body ++ chunk, rest, .testing⟩ :=
        hs.step (a := ()) rfl
      by_cases hlarge : settings.maxWebhookBodyBytes < (body ++ chunk).length
      · exact ⟨_, _, htaken.step (a := ()) (if_pos hlarge), rfl⟩
      · exact ih (body ++ chunk) (htaken.step (a := ()) (if_neg hlarge))

/-! ## What the buffer holds -/

structure BufferInv (settings : Settings) (chunks : List Bytes) (s : BodyState) : Prop where
  stream : ∀ chunk ∈ s.stream, chunk ∈ chunks
  /-- The buffer has been tested when the next chunk is asked for. -/
  tested : s.phase = .receiving → s.body.length ≤ settings.maxWebhookBodyBytes
  bound : s.body.length ≤ settings.maxWebhookBodyBytes ∨
    ∃ chunk ∈ chunks, s.body.length ≤ settings.maxWebhookBodyBytes + chunk.length

theorem bufferInv_step {settings : Settings} {chunks : List Bytes} {s t : BodyState}
    (inv : BufferInv settings chunks s) (h : bodyStep settings s = some t) :
    BufferInv settings chunks t := by
  obtain ⟨-, -, rfl⟩ | ⟨chunk, rest, hphase, hstream, rfl⟩ | ⟨-, -, rfl⟩ | ⟨-, hsmall, rfl⟩ :=
    bodyStep_cases h
  · exact ⟨inv.stream, nofun, inv.bound⟩
  · have hchunk : chunk ∈ chunks := inv.stream chunk (by simp [hstream])
    have hbefore := inv.tested hphase
    refine ⟨fun c hc => inv.stream c (by simp [hstream, hc]), nofun, Or.inr ⟨chunk, hchunk, ?_⟩⟩
    rw [List.length_append]
    omega
  · exact ⟨inv.stream, nofun, inv.bound⟩
  · exact ⟨inv.stream, fun _ => hsmall, inv.bound⟩

theorem bufferInv_reachable {settings : Settings} {chunks : List Bytes} {s : BodyState}
    (hs : (bodyLoop settings chunks).Reachable s) : BufferInv settings chunks s := by
  refine hs.invariant ?_ ?_
  · rintro s rfl
    exact ⟨fun _ hc => hc, fun _ => Nat.zero_le _, Or.inl (Nat.zero_le _)⟩
  · intro s _ t inv hstep
    exact bufferInv_step inv hstep

/-! ## Chunks do not matter -/

theorem readLimitedBody_of_flatten_eq (settings : Settings) {a b : List Bytes}
    (h : a.flatten = b.flatten) :
    readLimitedBody settings [] a = readLimitedBody settings [] b := by
  rw [readLimitedBody_eq settings [] a (Nat.zero_le _), readLimitedBody_eq settings [] b
    (Nat.zero_le _), h]

/-- The whole check of a request is one of its bytes. -/
theorem check_of_flatten_eq (rt : Runtime) (settings : Settings) (endpoints : List Endpoint)
    (limiter : Except Exc Bool) (request : WebhookRequest) {chunks : List Bytes}
    (h : chunks.flatten = request.chunks.flatten) :
    check rt settings endpoints limiter { request with chunks := chunks } =
      check rt settings endpoints limiter request := by
  unfold check
  rw [readLimitedBody_of_flatten_eq settings h]

theorem body_independent_of_chunking (settings : Settings) :
    (∀ chunks, readLimitedBody settings [] chunks =
      if chunks.flatten.length ≤ settings.maxWebhookBodyBytes then .ok chunks.flatten
      else .error (.http 413 "request body too large")) ∧
    (∀ a b : List Bytes, a.flatten = b.flatten →
      readLimitedBody settings [] a = readLimitedBody settings [] b) ∧
    (∀ chunks, ∃ s, (bodyLoop settings chunks).Reachable s ∧
      s.phase = .ended (readLimitedBody settings [] chunks)) ∧
    ∀ chunks s, (bodyLoop settings chunks).Reachable s →
      (∀ result, s.phase = .ended result → result = readLimitedBody settings [] chunks) ∧
      (s.body.length ≤ settings.maxWebhookBodyBytes ∨
        ∃ chunk ∈ chunks, s.body.length ≤ settings.maxWebhookBodyBytes + chunk.length) := by
  have hended : ∀ chunks s, (bodyLoop settings chunks).Reachable s → ∀ result,
      s.phase = .ended result → result = readLimitedBody settings [] chunks := by
    intro chunks s hs result hphase
    rw [← answer_reachable hs]
    simp only [answer, hphase]
  refine ⟨?_, fun _ _ => readLimitedBody_of_flatten_eq settings, ?_, ?_⟩
  · intro chunks
    rw [readLimitedBody_eq settings [] chunks (Nat.zero_le _), List.nil_append]
  · intro chunks
    have hstart : (bodyLoop settings chunks).Reachable { stream := chunks } := .start rfl
    obtain ⟨s, result, hs, hphase⟩ := exists_ended hstart rfl
    refine ⟨s, hs, ?_⟩
    rw [hphase, hended chunks s hs result hphase]
  · intro chunks s hs
    exact ⟨hended chunks s hs, (bufferInv_reachable hs).bound⟩

/-- Three bytes in a limit of three, in three cuts with an empty one among
them, and a fourth byte. -/
theorem body_independent_of_chunking_three :
    readLimitedBody { maxWebhookBodyBytes := 3 } [] [[1, 2], [], [3]] = .ok [1, 2, 3] ∧
    readLimitedBody { maxWebhookBodyBytes := 3 } [] [[1, 2], [], [3]] =
      readLimitedBody { maxWebhookBodyBytes := 3 } [] [[1], [2, 3]] ∧
    readLimitedBody { maxWebhookBodyBytes := 3 } [] [[1, 2, 3], [4]] =
      .error (.http 413 "request body too large") := by
  obtain ⟨hanswer, hsame, -⟩ := body_independent_of_chunking { maxWebhookBodyBytes := 3 }
  exact ⟨hanswer [[1, 2], [], [3]], hsame [[1, 2], [], [3]] [[1], [2, 3]] rfl,
    hanswer [[1, 2, 3], [4]]⟩

end WebhookRelay.Gateway
