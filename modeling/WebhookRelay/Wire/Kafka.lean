import WebhookRelay.Api.Events
import WebhookRelay.Outbox.Relay
import WebhookRelay.Retry.Scheduler
import WebhookRelay.Transform.Worker
import WebhookRelay.Wire.Accepted

/-!
# Messages as bytes

The serializers of the producers and the deserializers of the consumers. A
value that has bytes comes back as itself; a value that came from bytes has
bytes again. Every message of raw-events has bytes.
-/

namespace WebhookRelay.Wire

open Foundation Fallible Transform

section

variable (rt : JsonRuntime)

/-- `json.dumps(v).encode("utf-8")`. -/
def serialize (value : Json) : Except Exc ByteArray := (dumps rt value).map String.toUTF8

/-- `json.loads(b.decode("utf-8"))`. -/
def deserialize (bytes : ByteArray) : Except LoadError Json :=
  match String.fromUTF8? bytes with
  | some text => loads rt text
  | none => .error .unicode

end

variable {rt : JsonRuntime}

theorem fromUTF8?_toUTF8 (text : String) : String.fromUTF8? text.toUTF8 = some text := by
  unfold String.fromUTF8? String.toUTF8
  rw [dif_pos text.isValidUTF8]
  rfl

/-! ## A runtime for examples -/

/-- Floats by their bits: a number with a point that `float` takes apart
again. -/
def decimalRuntime : JsonRuntime where
  reprFloat x := String.ofList (Nat.toDigits 10 x.bits.toNat ++ ['.', '0'])
  float text :=
    let x : PyFloat := ⟨BitVec.ofNat 64 (Nat.ofDigitChars 10 (text.takeWhile Char.isDigit) 0)⟩
    if isFinite x then x else posInfinity
  encodeDepth := 1000
  decodeDepth := 1000

theorem floatsReadBack_decimalRuntime : FloatsReadBack decimalRuntime where
  literal x _ := by
    refine ⟨false, Nat.toDigits 10 x.bits.toNat, ['.', '0'], [],
      ⟨isDigits_toDigits _, .some ⟨by decide, List.forall_mem_singleton.mpr rfl⟩, .none,
        Or.inl (by decide)⟩, ?_⟩
    simp [decimalRuntime, signText]
  back x hfinite := by
    have hdigits : (Nat.toDigits 10 x.bits.toNat ++ ['.', '0']).takeWhile Char.isDigit =
        Nat.toDigits 10 x.bits.toNat :=
      (span_digits (isDigits_toDigits _).2.1 (fun c hc => by cases hc; rfl)).1
    simp only [decimalRuntime, String.toList_ofList, hdigits, Nat.ofDigitChars_ten_toDigits,
      BitVec.ofNat_toNat, BitVec.setWidth_eq, hfinite, if_true]
  number negative digits rest _ := by
    dsimp only [decimalRuntime]
    split
    · rename_i hfinite
      exact Or.inl hfinite
    · exact Or.inr (Or.inl rfl)

/-! ## Values -/

theorem serialize_succeeds_iff {value : Json} :
    Succeeds (serialize rt value) ↔
      nesting value ≤ rt.encodeDepth ∧ ∀ n ∈ value.ints, ShortInt n := by
  unfold serialize dumps
  rw [succeeds_map_iff, succeeds_map_iff, dumpAt_succeeds_iff]

/-- Bytes are read as the value they were written for, or not at all. -/
theorem deserialize_eq_ok_iff (hrt : FloatsReadBack rt) {value value' : Json}
    (hproper : Proper value) {bytes : ByteArray} (hbytes : serialize rt value = .ok bytes) :
    deserialize rt bytes = .ok value' ↔ value' = value ∧ nesting value ≤ rt.decodeDepth := by
  obtain ⟨text, htext, rfl⟩ := map_eq_ok_iff.mp hbytes
  unfold deserialize
  rw [fromUTF8?_toUTF8]
  exact loads_dumps_iff hrt hproper htext value'

/-- Which values have bytes, and what the bytes are read as: the value, unless
it is too deep for the reader. -/
theorem deserialize_serialize (hrt : FloatsReadBack rt) {value : Json} (hproper : Proper value) :
    (Succeeds (serialize rt value) ↔
      nesting value ≤ rt.encodeDepth ∧ ∀ n ∈ value.ints, ShortInt n) ∧
    ∀ bytes, serialize rt value = .ok bytes → ∀ value',
      deserialize rt bytes = .ok value' ↔ value' = value ∧ nesting value ≤ rt.decodeDepth := by
  refine ⟨serialize_succeeds_iff, ?_⟩
  intro bytes hbytes value'
  exact deserialize_eq_ok_iff hrt hproper hbytes

/-- A list of a text and a number below the key of a dict. -/
def sampleValue : Json := .obj [("a", .arr [.str "\"ä\"", .int (-10)])]

theorem deserialize_serialize_sampleValue :
    ∃ bytes, serialize decimalRuntime sampleValue = .ok bytes ∧
      deserialize decimalRuntime bytes = .ok sampleValue := by
  have hproper : Proper sampleValue := ⟨by decide, ⟨trivial, trivial, trivial⟩, trivial⟩
  have hshort : ∀ n ∈ sampleValue.ints, ShortInt n := by
    intro n hn
    obtain rfl : n = -10 := by
      simpa [sampleValue, Json.ints, Json.intsItems, Json.intsFields] using hn
    exact Nat.lt_of_lt_of_le (by norm_num : (10 : ℕ) < 10 ^ 2)
      (Nat.pow_le_pow_right (by norm_num) (by decide))
  obtain ⟨hiff, hback⟩ := deserialize_serialize floatsReadBack_decimalRuntime hproper
  obtain ⟨bytes, hbytes⟩ := hiff.mpr ⟨by decide, hshort⟩
  exact ⟨bytes, hbytes, (hback bytes hbytes _).mpr ⟨rfl, by decide⟩⟩

/-- Whatever bytes are accepted, in whatever spelling: their value can be
written and is then accepted as the same value. -/
theorem serialize_deserialize (hrt : FloatsReadBack rt) {bytes : ByteArray} {value : Json}
    (h : deserialize rt bytes = .ok value) :
    Held rt.decodeDepth value ∧
      (nesting value ≤ rt.encodeDepth →
        ∃ written, serialize rt value = .ok written ∧ deserialize rt written = .ok value) := by
  have hheld : Held rt.decodeDepth value := by
    unfold deserialize at h
    split at h
    · exact held_loads hrt h
    · cases h
  refine ⟨hheld, ?_⟩
  intro hdepth
  obtain ⟨written, hwritten⟩ := serialize_succeeds_iff.mpr ⟨hdepth, hheld.2.2⟩
  exact ⟨written, hwritten,
    (deserialize_eq_ok_iff hrt hheld.1 hwritten).mpr ⟨rfl, hheld.2.1⟩⟩

/-- A spelling that the relay itself would not write. -/
def spacedText : String := "\t[ \"\\u00e4\" ,null]"

theorem deserialize_spacedText :
    deserialize decimalRuntime spacedText.toUTF8 = .ok (.arr [.str "ä", .null]) := by
  have htext : skip spacedText.toList = ['[', ' ', '"', '\\', 'u', '0', '0', 'e', '4', '"', ' ', ',',
      'n', 'u', 'l', 'l', ']'] := by decide
  have hvalue : scanOnce decimalRuntime decimalRuntime.decodeDepth ['[', ' ', '"', '\\', 'u', '0',
      '0', 'e', '4', '"', ' ', ',', 'n', 'u', 'l', 'l', ']'] =
      .ok (.arr [.str "ä", .null], []) := by
    rfl
  unfold deserialize
  rw [fromUTF8?_toUTF8]
  dsimp only
  unfold loads
  rw [htext, hvalue]
  rfl

theorem serialize_deserialize_spacedText :
    ∃ written, serialize decimalRuntime (.arr [.str "ä", .null]) = .ok written ∧
      deserialize decimalRuntime written = .ok (.arr [.str "ä", .null]) :=
  (serialize_deserialize floatsReadBack_decimalRuntime deserialize_spacedText).2 (by decide)

/-! ## Messages -/

/-- A record as the broker holds it. -/
structure KafkaRecord where
  topic : String
  key : String
  value : ByteArray

section

variable (rt : JsonRuntime)

/-- What a producer makes of a message. -/
def encode (m : KafkaMessage) : Except Exc KafkaRecord :=
  (serialize rt (.obj m.value)).map (fun value => ⟨m.topic, m.key, value⟩)

/-- What a consumer makes of a record. A value that is no dict ends its loop,
as a value that cannot be read does. -/
def decode (record : KafkaRecord) : Option KafkaMessage :=
  match deserialize rt record.value with
  | .ok (.obj fields) => some ⟨record.topic, record.key, fields⟩
  | _ => none

/-- The record of a message that is made of values as Python holds them. -/
def CarriedBy (m : KafkaMessage) (record : KafkaRecord) : Prop :=
  Proper (.obj m.value) ∧ encode rt m = .ok record

end

variable {m m' : KafkaMessage} {record : KafkaRecord}

theorem encode_succeeds_iff :
    Succeeds (encode rt m) ↔
      nesting (.obj m.value) ≤ rt.encodeDepth ∧ ∀ n ∈ (Json.obj m.value).ints, ShortInt n := by
  unfold encode
  rw [succeeds_map_iff, serialize_succeeds_iff]

/-- A consumer reads the message that the record carries, or nothing. -/
theorem CarriedBy.decode_iff (hrt : FloatsReadBack rt) (h : CarriedBy rt m record) :
    decode rt record = some m' ↔ m' = m ∧ nesting (.obj m.value) ≤ rt.decodeDepth := by
  obtain ⟨hproper, hencode⟩ := h
  obtain ⟨bytes, hbytes, rfl⟩ := map_eq_ok_iff.mp hencode
  unfold decode
  constructor
  · intro hdecode
    dsimp only at hdecode
    split at hdecode
    · rename_i fields hfields
      obtain ⟨heq, hdeep⟩ := (deserialize_eq_ok_iff hrt hproper hbytes).mp hfields
      obtain rfl := Json.obj.inj heq
      exact ⟨(Option.some.inj hdecode).symm, hdeep⟩
    · cases hdecode
  · rintro ⟨rfl, hdeep⟩
    dsimp only
    rw [(deserialize_eq_ok_iff hrt hproper hbytes).mpr ⟨rfl, hdeep⟩]

/-! ## Messages of raw-events -/

/-- Texts and truth values under different keys. -/
structure FlatFields (fields : List (String × Json)) : Prop where
  keys : (fields.map Prod.fst).Nodup
  scalars : ∀ f ∈ fields, (∃ s, f.2 = .str s) ∨ ∃ b, f.2 = .bool b

theorem FlatFields.held {fields : List (String × Json)} (h : FlatFields fields) :
    Held 1 (.obj fields) := by
  refine held_obj h.keys (fun f hf => ?_)
  rcases h.scalars f hf with ⟨s, hs⟩ | ⟨b, hb⟩
  · rw [hs]
    exact held_scalar (.str s) trivial rfl rfl 0
  · rw [hb]
    exact held_scalar (.bool b) trivial rfl rfl 0

theorem flatFields_publishMessage (record : OutboxRecord) :
    FlatFields (Outbox.publishMessage record).value :=
  ⟨(by decide : ["event_id", "endpoint_id"].Nodup), by simp [Outbox.publishMessage]⟩

theorem flatFields_requeueMessage (settings : Settings) (event : Event) :
    FlatFields (Retry.requeueMessage settings event).value :=
  ⟨(by decide : ["event_id", "endpoint_id"].Nodup), by simp [Retry.requeueMessage]⟩

theorem flatFields_replayMessage (settings : Settings) (event : Event) :
    FlatFields (Api.replayMessage settings event).value :=
  ⟨(by decide : ["event_id", "endpoint_id", "is_replay"].Nodup), by simp [Api.replayMessage]⟩

end WebhookRelay.Wire
