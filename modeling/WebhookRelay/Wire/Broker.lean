import WebhookRelay.Foundation.Simulation
import WebhookRelay.Wire.Values

/-!
# The pipeline over bytes

The components of `Pipeline.System` around a broker that holds bytes: what
they send is serialized on the way in, and deserialized by whoever takes it.
A body that has no text makes the send of its route raise. Seen through
`Represents`, every step is one of the pipeline over messages, so that what
never happens there never happens here.
-/

namespace WebhookRelay.Wire

open Foundation Fallible Pipeline

structure WireRuntime where
  pipeline : Pipeline.Runtime
  json : JsonRuntime

/-- `components` has no messages of its own. -/
structure WireState where
  components : PipelineState
  outgoing : List KafkaRecord := []
  kafka : List KafkaRecord := []

/-- The components with these messages in front of them. -/
def facing (c : PipelineState) (outgoing kafka : List KafkaMessage) : PipelineState :=
  { c with outgoing := outgoing, kafka := kafka }

section Steps

variable (rt : WireRuntime) (settings : Settings)

/-- A step of the components that takes no record. `value_serializer` runs
inside `send_and_wait`: its exception is that of the send. -/
def hand (w : WireState) (label : PipelineLabel) : Option WireState :=
  (pipelineNext rt.pipeline settings w.components label).bind (fun c =>
    match c.outgoing.mapM (encode rt.json) with
    | .ok records => some ⟨facing c [] [], w.outgoing ++ records, w.kafka⟩
    | .error exc =>
        match label with
        | .dispatch i _ =>
            (pipelineNext rt.pipeline settings w.components (.dispatch i (.error exc))).map
              (fun c => ⟨facing c [] [], w.outgoing, w.kafka⟩)
        | _ => some ⟨facing c [] [], w.outgoing, w.kafka⟩)

/-- A step of the components that takes the record at `i`. -/
def take (w : WireState) (i : ℕ) (label : PipelineLabel) : Option WireState :=
  (w.kafka[i]?.bind (decode rt.json)).bind (fun m =>
    (pipelineNext rt.pipeline settings (facing w.components [] [m]) label).map (fun c =>
      ⟨facing c [] [], w.outgoing, w.kafka⟩))

def wireNext (w : WireState) : PipelineLabel → Option WireState
  | .arrive i => w.outgoing[i]?.map (fun record => { w with kafka := w.kafka ++ [record] })
  | .loadEvent i => take rt settings w i (.loadEvent 0)
  | .startDelivery i => take rt settings w i (.startDelivery 0)
  | label => hand rt settings w label

/-- From a database whose routes are decoded JSON. -/
def wirePipeline : Machine WireState PipelineLabel where
  init := fun w => (pipeline rt.pipeline settings).init w.components ∧
    (∀ r ∈ w.components.db.routes, ProperRoute r) ∧ w.outgoing = [] ∧ w.kafka = []
  next := wireNext rt settings

end Steps

/-! ## Steps and the messages around them -/

section Facing

variable {rt : Pipeline.Runtime} {settings : Settings} {c t : PipelineState}
  {outgoing kafka : List KafkaMessage}

theorem PythonValues.facing (h : PythonValues c) : PythonValues (facing c outgoing kafka) :=
  ⟨h.events, h.routes, h.ingesting, h.transforming⟩

/-- The labels of steps that take no message. -/
def Hands : PipelineLabel → Prop
  | .arrive _ => False
  | .loadEvent _ => False
  | .startDelivery _ => False
  | _ => True

/-- A step that takes no message goes on whatever messages there are, and adds
its own behind them. -/
theorem pipelineNext_facing (c : PipelineState) (outgoing kafka : List KafkaMessage)
    {label : PipelineLabel} (hlabel : Hands label) :
    pipelineNext rt settings (facing c outgoing kafka) label =
      (pipelineNext rt settings (facing c [] []) label).map (fun t =>
        facing t (outgoing ++ t.outgoing) kafka) := by
  cases label with
  | arrive i => exact hlabel.elim
  | loadEvent i => exact hlabel.elim
  | startDelivery i => exact hlabel.elim
  | change endpoints routes => simp [pipelineNext, facing]
  | api env request => simp [pipelineNext, facing]
  | receive limiter request =>
      simp only [pipelineNext, receive, facing]
      split <;> simp
  | ingest i eventId outboxId now =>
      simp only [pipelineNext, ingest, facing]
      split
      · split_ifs <;> simp
      · rfl
  | relay tie locked i answer => simp [pipelineNext, facing, Function.comp_def]
  | relayCommit id result => simp [pipelineNext, relayCommit, facing]
  | requeue now i => simp [pipelineNext, facing, Function.comp_def]
  | requeueCommit id now result => simp [pipelineNext, setEvents, facing]
  | loadRoutes i =>
      simp only [pipelineNext, loadRoutes, facing]
      split
      · split <;> simp
      · rfl
  | dispatch i send =>
      simp only [pipelineNext, dispatch, facing]
      split
      · split <;> simp
      · rfl
  | deliver i ans =>
      simp only [pipelineNext, deliver, facing]
      split <;> simp

/-- A step that takes a message needs no other. -/
theorem loadEvent_facing (c : PipelineState) (outgoing : List KafkaMessage) {i : ℕ}
    {m : KafkaMessage} (h : kafka[i]? = some m) :
    loadEvent settings (facing c outgoing kafka) i =
      (loadEvent settings (facing c [] [m]) 0).map (fun t => facing t outgoing kafka) := by
  simp only [loadEvent, facing, h, List.getElem?_cons_zero]
  split
  · split
    · simp [Function.comp_def]
    · rfl
  · rfl

theorem startDelivery_facing (c : PipelineState) (outgoing : List KafkaMessage) {i : ℕ}
    {m : KafkaMessage} (h : kafka[i]? = some m) :
    startDelivery settings (facing c outgoing kafka) i =
      (startDelivery settings (facing c [] [m]) 0).map (fun t => facing t outgoing kafka) := by
  simp only [startDelivery, facing, h, List.getElem?_cons_zero]
  split
  · split <;> simp
  · rfl

end Facing

/-! ## What the records stand for -/

/-- The state over messages that a state over bytes stands for: the same
components, and for every record a message that it carries. -/
structure Represents (json : JsonRuntime) (w : WireState) (s : PipelineState) : Prop where
  same : s = facing w.components s.outgoing s.kafka
  quiet : w.components = facing w.components [] []
  outgoing : ∀ record ∈ w.outgoing, ∃ m ∈ s.outgoing, CarriedBy json m record
  kafka : ∀ record ∈ w.kafka, ∃ m ∈ s.kafka, CarriedBy json m record
  values : PythonValues w.components

section Simulation

variable {rt : WireRuntime} {settings : Settings} {w w' : WireState} {s : PipelineState}
  {c : PipelineState} {label : PipelineLabel}

/-- The step of the components, among the messages of the represented state. -/
theorem Represents.step (h : Represents rt.json w s) (hlabel : Hands label)
    (hstep : pipelineNext rt.pipeline settings w.components label = some c) :
    pipelineNext rt.pipeline settings s label =
      some (facing c (s.outgoing ++ c.outgoing) s.kafka) := by
  calc pipelineNext rt.pipeline settings s label
      = pipelineNext rt.pipeline settings (facing w.components s.outgoing s.kafka) label :=
        congrArg (fun s => pipelineNext rt.pipeline settings s label) h.same
    _ = some (facing c (s.outgoing ++ c.outgoing) s.kafka) := by
        rw [pipelineNext_facing _ _ _ hlabel, ← h.quiet, hstep]
        rfl

/-- What a step of the components adds, with the records of what it sends. -/
theorem Represents.extend (records : List KafkaRecord) (h : Represents rt.json w s)
    (hvalues : PythonValues c)
    (hrecords : ∀ record ∈ records, ∃ m ∈ c.outgoing, CarriedBy rt.json m record) :
    Represents rt.json ⟨facing c [] [], w.outgoing ++ records, w.kafka⟩
      (facing c (s.outgoing ++ c.outgoing) s.kafka) := by
  refine ⟨rfl, rfl, ?_, h.kafka, hvalues.facing⟩
  intro record hrecord
  rcases List.mem_append.mp hrecord with hold | hnew
  · obtain ⟨m, hm, hcarried⟩ := h.outgoing record hold
    exact ⟨m, List.mem_append_left _ hm, hcarried⟩
  · obtain ⟨m, hm, hcarried⟩ := hrecords record hnew
    exact ⟨m, List.mem_append_right _ hm, hcarried⟩

theorem Represents.hand (hpython : PythonRuntime rt.pipeline) (h : Represents rt.json w s)
    (hinput : ProperInput label) (hlabel : Hands label)
    (hstep : hand rt settings w label = some w') :
    ∃ b s', pipelineNext rt.pipeline settings s b = some s' ∧ Represents rt.json w' s' := by
  have hempty : w.components.outgoing = [] := congrArg PipelineState.outgoing h.quiet
  obtain ⟨c, hc, hstep⟩ := Option.bind_eq_some_iff.mp hstep
  -- nothing is handed over: the messages of `c` stay with the components' own account
  have silent : ∀ {label c}, Hands label → ProperInput label →
      pipelineNext rt.pipeline settings w.components label = some c →
      w' = ⟨facing c [] [], w.outgoing, w.kafka⟩ →
      ∃ b s', pipelineNext rt.pipeline settings s b = some s' ∧ Represents rt.json w' s' := by
    rintro label c hlabel hinput hc rfl
    have hextend := h.extend [] (pythonValues_next hpython h.values hinput hc)
      (fun record hrecord => absurd hrecord List.not_mem_nil)
    rw [List.append_nil] at hextend
    exact ⟨label, _, h.step hlabel hc, hextend⟩
  split at hstep
  · rename_i records hrecords
    obtain rfl := Option.some.inj hstep
    refine ⟨label, _, h.step hlabel hc,
      h.extend records (pythonValues_next hpython h.values hinput hc) ?_⟩
    intro record hrecord
    obtain ⟨m, hm, hencode⟩ := exists_mem_of_mapM hrecords record hrecord
    exact ⟨m, hm, proper_outgoing hpython h.values hempty hc m hm, hencode⟩
  · split at hstep
    · obtain ⟨c', hc', heq⟩ := Option.map_eq_some_iff.mp hstep
      refine silent ?_ ?_ hc' heq.symm
      · trivial
      · trivial
    · exact silent hlabel hinput hc (Option.some.inj hstep).symm

theorem Represents.take (label : PipelineLabel) {i : ℕ} (hrt : FloatsReadBack rt.json)
    (hpython : PythonRuntime rt.pipeline) (h : Represents rt.json w s) (hinput : ProperInput label)
    (htakes : ∀ {j : ℕ} {m : KafkaMessage}, s.kafka[j]? = some m → ∃ b,
      pipelineNext rt.pipeline settings (facing w.components s.outgoing s.kafka) b =
        (pipelineNext rt.pipeline settings (facing w.components [] [m]) label).map
          (fun t => facing t s.outgoing s.kafka))
    (hstep : take rt settings w i label = some w') :
    ∃ b s', pipelineNext rt.pipeline settings s b = some s' ∧ Represents rt.json w' s' := by
  obtain ⟨m', hm', hstep⟩ := Option.bind_eq_some_iff.mp hstep
  obtain ⟨record, hrecord, hdecode⟩ := Option.bind_eq_some_iff.mp hm'
  obtain ⟨c, hc, rfl⟩ := Option.map_eq_some_iff.mp hstep
  obtain ⟨m, hm, hcarried⟩ := h.kafka record (List.mem_of_getElem? hrecord)
  obtain ⟨rfl, _⟩ := (hcarried.decode_iff hrt).mp hdecode
  obtain ⟨j, hj⟩ := List.mem_iff_getElem?.mp hm
  obtain ⟨b, hb⟩ := htakes hj
  refine ⟨b, facing c s.outgoing s.kafka, ?_, rfl, rfl, h.outgoing, h.kafka, ?_⟩
  · rw [← h.same, hc] at hb
    exact hb
  · exact (pythonValues_next hpython h.values.facing hinput hc).facing

theorem wireNext_of_hands (hlabel : Hands label) :
    wireNext rt settings w label = Wire.hand rt settings w label := by
  cases label with
  | arrive i => exact hlabel.elim
  | loadEvent i => exact hlabel.elim
  | startDelivery i => exact hlabel.elim
  | _ => rfl

/-- Every step over bytes is one over messages. -/
theorem wire_simulates (hrt : FloatsReadBack rt.json) (hpython : PythonRuntime rt.pipeline) :
    (wirePipeline rt settings).Simulates (pipeline rt.pipeline settings)
      (fun mv => ProperInput mv.label) (Represents rt.json) := by
  constructor
  · rintro ⟨c, outgoing, kafka⟩ ⟨hinit, hroutes, rfl, rfl⟩
    have hevents : c.db.events = [] := congrArg (fun c => c.db.events) hinit
    have hingesting : c.ingesting = [] := congrArg PipelineState.ingesting hinit
    have hout : c.outgoing = [] := congrArg PipelineState.outgoing hinit
    have hkafka : c.kafka = [] := congrArg PipelineState.kafka hinit
    have htasks : c.transforming = [] := congrArg PipelineState.transforming hinit
    have hquiet : c = facing c [] [] := by
      calc c = facing c c.outgoing c.kafka := rfl
        _ = facing c [] [] := by rw [hout, hkafka]
    have hvalues : PythonValues c := by
      refine ⟨?_, hroutes, ?_, ?_⟩
      · rw [hevents]
        exact fun e he => absurd he List.not_mem_nil
      · rw [hingesting]
        exact fun x hx => absurd hx List.not_mem_nil
      · rw [htasks]
        exact fun task htask => absurd htask List.not_mem_nil
    refine ⟨c, hinit, rfl, hquiet, ?_, ?_, hvalues⟩
    · exact fun record hrecord => absurd hrecord List.not_mem_nil
    · exact fun record hrecord => absurd hrecord List.not_mem_nil
  · intro w s label w' h hstep hinput
    change ProperInput label at hinput
    by_cases hlabel : Hands label
    · exact h.hand hpython hinput hlabel ((wireNext_of_hands hlabel).symm.trans hstep)
    cases label with
    | arrive i =>
        obtain ⟨record, hrecord, rfl⟩ := Option.map_eq_some_iff.mp hstep
        obtain ⟨m, hm, hcarried⟩ := h.outgoing record (List.mem_of_getElem? hrecord)
        obtain ⟨j, hj⟩ := List.mem_iff_getElem?.mp hm
        refine ⟨.arrive j, { s with kafka := s.kafka ++ [m] }, ?_, ?_⟩
        · exact Option.map_eq_some_iff.mpr ⟨m, hj, rfl⟩
        · refine ⟨?_, h.quiet, h.outgoing, ?_, h.values⟩
          · show _ = facing w.components s.outgoing (s.kafka ++ [m])
            conv_lhs => rw [h.same]
            rfl
          · intro record' hrecord'
            rcases List.mem_append.mp hrecord' with hold | hnew
            · obtain ⟨m', hm', hcarried'⟩ := h.kafka record' hold
              exact ⟨m', List.mem_append_left _ hm', hcarried'⟩
            · obtain rfl := List.mem_singleton.mp hnew
              exact ⟨m, List.mem_append_right _ (List.mem_singleton_self m), hcarried⟩
    | loadEvent i =>
        refine h.take (.loadEvent 0) hrt hpython trivial ?_ hstep
        intro j m hj
        exact ⟨.loadEvent j, loadEvent_facing _ _ hj⟩
    | startDelivery i =>
        refine h.take (.startDelivery 0) hrt hpython trivial ?_ hstep
        intro j m hj
        exact ⟨.startDelivery j, startDelivery_facing _ _ hj⟩
    | _ => exact absurd trivial hlabel

/-! ## Nothing is lost -/

/-- The message has bytes, and a consumer has levels enough for it. -/
def Readable (json : JsonRuntime) (m : KafkaMessage) : Prop :=
  Held (min json.encodeDepth json.decodeDepth) (.obj m.value)

instance (json : JsonRuntime) (m : KafkaMessage) : Decidable (Readable json m) :=
  inferInstanceAs (Decidable (Held _ _))

/-- The same components, and messages and records one for one. -/
structure Carries (json : JsonRuntime) (s : PipelineState) (w : WireState) : Prop where
  same : w.components = facing s [] []
  outgoing : List.Forall₂ (fun m record => Readable json m ∧ encode json m = .ok record)
    s.outgoing w.outgoing
  kafka : List.Forall₂ (fun m record => Readable json m ∧ encode json m = .ok record)
    s.kafka w.kafka

variable {t : PipelineState}

theorem exists_getElem?_of_forall₂ {α β : Type} {R : α → β → Prop} {xs : List α} {ys : List β}
    (h : List.Forall₂ R xs ys) {i : ℕ} {x : α} (hx : xs[i]? = some x) :
    ∃ y, ys[i]? = some y ∧ R x y := by
  induction h generalizing i with
  | nil => cases hx
  | @cons a b _ _ hab _ ih =>
      cases i with
      | zero =>
          obtain rfl := Option.some.inj hx
          exact ⟨b, rfl, hab⟩
      | succ i => exact ih hx

theorem Readable.encodes {json : JsonRuntime} {m : KafkaMessage} (h : Readable json m) :
    Succeeds (encode json m) :=
  encode_succeeds_iff.mpr ⟨h.2.1.trans (min_le_left _ _), h.2.2⟩

theorem Readable.decode {json : JsonRuntime} {m : KafkaMessage} {record : KafkaRecord}
    (h : Readable json m) (hrt : FloatsReadBack json) (hencode : encode json m = .ok record) :
    decode json record = some m :=
  (CarriedBy.decode_iff hrt ⟨h.1, hencode⟩).mpr ⟨rfl, h.2.1.trans (min_le_right _ _)⟩

/-- A step that takes no message, apart from the messages around it. -/
theorem exists_handing (hlabel : Hands label)
    (hstep : pipelineNext rt.pipeline settings s label = some t) :
    ∃ c, pipelineNext rt.pipeline settings (facing s [] []) label = some c ∧
      t = facing c (s.outgoing ++ c.outgoing) s.kafka := by
  have hfacing : pipelineNext rt.pipeline settings (facing s s.outgoing s.kafka) label = some t :=
    hstep
  rw [pipelineNext_facing _ _ _ hlabel] at hfacing
  obtain ⟨c, hc, rfl⟩ := Option.map_eq_some_iff.mp hfacing
  exact ⟨c, hc, rfl⟩

/-- No step takes back what has been sent. -/
theorem outgoing_next (hstep : pipelineNext rt.pipeline settings s label = some t) :
    ∀ m ∈ s.outgoing, m ∈ t.outgoing := by
  intro m hm
  by_cases hlabel : Hands label
  · obtain ⟨c, _, rfl⟩ := exists_handing hlabel hstep
    exact List.mem_append_left _ hm
  · cases label with
    | arrive i =>
        obtain ⟨_, _, rfl⟩ := Option.map_eq_some_iff.mp hstep
        exact hm
    | loadEvent i =>
        obtain ⟨_, _, _, _, _, _, _, rfl⟩ := loadEvent_cases hstep
        exact hm
    | startDelivery i =>
        obtain ⟨_, _, _, _, _, _, _, rfl⟩ := startDelivery_cases hstep
        exact hm
    | _ => exact absurd trivial hlabel

theorem Carries.hand (h : Carries rt.json s w) (hlabel : Hands label)
    (hstep : pipelineNext rt.pipeline settings s label = some t)
    (hread : ∀ m ∈ t.outgoing, Readable rt.json m) :
    ∃ w', wireNext rt settings w label = some w' ∧ Carries rt.json t w' := by
  obtain ⟨c, hc, rfl⟩ := exists_handing hlabel hstep
  have hnew : ∀ m ∈ c.outgoing, Readable rt.json m :=
    fun m hm => hread m (List.mem_append_right _ hm)
  obtain ⟨records, hrecords, hall⟩ := exists_mapM_eq_ok (fun m hm => (hnew m hm).encodes)
  refine ⟨⟨facing c [] [], w.outgoing ++ records, w.kafka⟩, ?_, rfl, ?_, h.kafka⟩
  · rw [wireNext_of_hands hlabel, Wire.hand, h.same, hc, Option.bind_some, hrecords]
  · refine List.rel_append h.outgoing ?_
    exact (List.forall₂_and_left _ _).mpr ⟨hnew, hall⟩

theorem Carries.take {m : KafkaMessage} {i : ℕ} (h : Carries rt.json s w)
    (hrt : FloatsReadBack rt.json) (hm : s.kafka[i]? = some m)
    (hstep : (pipelineNext rt.pipeline settings (facing s [] [m]) label).map
      (fun t => facing t s.outgoing s.kafka) = some t) :
    ∃ w', Wire.take rt settings w i label = some w' ∧ Carries rt.json t w' := by
  obtain ⟨c, hc, rfl⟩ := Option.map_eq_some_iff.mp hstep
  obtain ⟨record, hrecord, hread, hencode⟩ := exists_getElem?_of_forall₂ h.kafka hm
  refine ⟨⟨facing c [] [], w.outgoing, w.kafka⟩, ?_, rfl, h.outgoing, h.kafka⟩
  unfold Wire.take
  rw [hrecord, Option.bind_some, hread.decode hrt hencode, Option.bind_some, h.same]
  exact Option.map_eq_some_iff.mpr ⟨c, hc, rfl⟩

/-- A step over messages is one over bytes, under the same label. -/
theorem Carries.next (h : Carries rt.json s w) (hrt : FloatsReadBack rt.json)
    (hstep : pipelineNext rt.pipeline settings s label = some t)
    (hread : ∀ m ∈ t.outgoing, Readable rt.json m) :
    ∃ w', wireNext rt settings w label = some w' ∧ Carries rt.json t w' := by
  by_cases hlabel : Hands label
  · exact h.hand hlabel hstep hread
  cases label with
  | arrive i =>
      obtain ⟨m, hm, rfl⟩ := Option.map_eq_some_iff.mp hstep
      obtain ⟨record, hrecord, hcarried⟩ := exists_getElem?_of_forall₂ h.outgoing hm
      refine ⟨{ w with kafka := w.kafka ++ [record] }, ?_, h.same, h.outgoing, ?_⟩
      · exact Option.map_eq_some_iff.mpr ⟨record, hrecord, rfl⟩
      · exact List.rel_append h.kafka (.cons hcarried .nil)
  | loadEvent i =>
      obtain ⟨m, _, _, hm, _⟩ := loadEvent_cases hstep
      exact h.take hrt hm ((loadEvent_facing s s.outgoing hm).symm.trans hstep)
  | startDelivery i =>
      obtain ⟨m, _, _, _, hm, _⟩ := startDelivery_cases hstep
      exact h.take hrt hm ((startDelivery_facing s s.outgoing hm).symm.trans hstep)
  | _ => exact absurd trivial hlabel

theorem carries_init {s₀ : PipelineState} (hinit : (pipeline rt.pipeline settings).init s₀) :
    Carries rt.json s₀ ⟨s₀, [], []⟩ := by
  have hout : s₀.outgoing = [] := congrArg PipelineState.outgoing hinit
  have hkafka : s₀.kafka = [] := congrArg PipelineState.kafka hinit
  refine ⟨?_, ?_, ?_⟩
  · calc s₀ = facing s₀ s₀.outgoing s₀.kafka := rfl
      _ = facing s₀ [] [] := by rw [hout, hkafka]
  · rw [hout]
    exact .nil
  · rw [hkafka]
    exact .nil

theorem Carries.run (hrt : FloatsReadBack rt.json) {s₀ : PipelineState} {w₀ : WireState}
    {moves : List (Move PipelineState PipelineLabel)} (hstart : Carries rt.json s₀ w₀)
    (run : (pipeline rt.pipeline settings).Run s₀ moves s)
    (hread : ∀ m ∈ s.outgoing, Readable rt.json m) :
    ∃ w moves', (wirePipeline rt settings).Run w₀ moves' w ∧
      moves'.map Move.label = moves.map Move.label ∧ Carries rt.json s w := by
  induction run with
  | nil => exact ⟨w₀, [], .nil w₀, rfl, hstart⟩
  | snoc _ hstep ih =>
      obtain ⟨w, moves', hrun, hlabels, hcarries⟩ :=
        ih (fun m hm => hread m (outgoing_next hstep m hm))
      obtain ⟨w', hnext, hcarries'⟩ := hcarries.next hrt hstep hread
      refine ⟨w', _, hrun.snoc hnext, ?_, hcarries'⟩
      simp only [List.map_append, hlabels, List.map_cons, List.map_nil]

/-! ## One webhook -/

def sampleWire : WireRuntime := ⟨identifierRuntime, decimalRuntime⟩

theorem sampleWire_init :
    (wirePipeline sampleWire {}).init ⟨emptyPipeline, [], []⟩ := by
  refine ⟨rfl, ?_, rfl, rfl⟩
  intro r hr
  obtain rfl := List.mem_singleton.mp hr
  exact ⟨by decide, by decide⟩

theorem pythonRuntime_sampleWire : PythonRuntime sampleWire.pipeline where
  loads _ payload h := by
    obtain rfl := Gateway.LoadResult.value.inj h
    trivial
  search expression value result hvalue h := by
    cases value with
    | obj fields =>
        obtain rfl := Except.ok.inj h
        cases hget : Json.get? fields expression with
        | none => trivial
        | some found => exact proper_of_get? hvalue hget
    | _ =>
        obtain rfl := Except.ok.inj h
        trivial

/-- The run over messages from the webhook to the request, and what it sends. -/
theorem webhookRun_readable :
    ((pipeline identifierRuntime {}).exec emptyPipeline webhookRun).isSome = true ∧
      (∀ m ∈ ((pipeline identifierRuntime {}).after emptyPipeline webhookRun).outgoing,
        Readable decimalRuntime m) ∧
      ((pipeline identifierRuntime {}).after emptyPipeline webhookRun).issued.map
        Issued.routeId = [headersRoute.id] := by
  decide +kernel

/-- Every run over messages that all have a text is a run over bytes: step by
step under the same labels, to the same components. -/
theorem exists_run_over_bytes (rt : WireRuntime) (settings : Settings)
    (hrt : FloatsReadBack rt.json) {s s₀ : PipelineState}
    {moves : List (Move PipelineState PipelineLabel)}
    (hinit : (pipeline rt.pipeline settings).init s₀)
    (run : (pipeline rt.pipeline settings).Run s₀ moves s)
    (hread : ∀ m ∈ s.outgoing, Readable rt.json m) :
    ∃ w moves', (wirePipeline rt settings).Run ⟨s₀, [], []⟩ moves' w ∧
      moves'.map Move.label = moves.map Move.label ∧ w.components = facing s [] [] := by
  obtain ⟨w, moves', hrun, hlabels, hcarries⟩ := Carries.run hrt (carries_init hinit) run hread
  exact ⟨w, moves', hrun, hlabels, hcarries.same⟩

theorem exists_run_over_bytes_webhookRun :
    ∃ w moves, (wirePipeline sampleWire {}).Run ⟨emptyPipeline, [], []⟩ moves w ∧
      w.components.issued.map Issued.routeId = [headersRoute.id] := by
  obtain ⟨hexec, hread, hissued⟩ := webhookRun_readable
  have hrun := Machine.run_trace (Machine.exec_eq_after hexec)
  obtain ⟨w, moves, hrun', _, hsame⟩ := exists_run_over_bytes sampleWire {}
    floatsReadBack_decimalRuntime sampleWire_init.1 hrun hread
  exact ⟨w, moves, hrun', (congrArg (fun c => c.issued.map Issued.routeId) hsame).trans hissued⟩

/-- No wrong request is issued over bytes either. -/
theorem no_wrong_delivery_over_bytes (rt : WireRuntime) (settings : Settings)
    (hrt : FloatsReadBack rt.json)
    (hpython : PythonRuntime rt.pipeline) {w₀ w : WireState}
    {moves : List (Move WireState PipelineLabel)} (hinit : (wirePipeline rt settings).init w₀)
    (run : (wirePipeline rt settings).Run w₀ moves w)
    (hmoves : ∀ mv ∈ moves, ProperInput mv.label) :
    ∀ issued ∈ w.components.issued, Rightful rt.pipeline w.components issued := by
  obtain ⟨s, hreach, h⟩ := (wire_simulates hrt hpython).exists_reachable hinit run hmoves
  intro issued hissued
  have hinv : PipelineInv rt.pipeline settings s :=
    hreach.invariant (fun _ => pipelineInv_init) (fun _ label _ => pipelineInv_next label)
  rw [h.same] at hinv
  exact hinv.issued issued hissued

theorem no_wrong_delivery_over_bytes_webhookRun :
    ∃ w : WireState, w.components.issued.map Issued.routeId = [headersRoute.id] ∧
      ∀ issued ∈ w.components.issued, Rightful identifierRuntime w.components issued := by
  obtain ⟨hexec, hread, hissued⟩ := webhookRun_readable
  obtain ⟨_, hmessages, hlabels⟩ := Machine.exists_run_of_exec (Machine.exec_eq_after hexec)
  obtain ⟨w, moves, hrun, hsame, hcarries⟩ := Carries.run floatsReadBack_decimalRuntime
    (carries_init sampleWire_init.1) hmessages hread
  refine ⟨w, (congrArg (fun c => c.issued.map Issued.routeId) hcarries.same).trans hissued, ?_⟩
  refine no_wrong_delivery_over_bytes sampleWire {} floatsReadBack_decimalRuntime
    pythonRuntime_sampleWire sampleWire_init hrun ?_
  intro mv hmv
  have hlabel : mv.label ∈ webhookRun := by
    rw [← hlabels, ← hsame]
    exact List.mem_map_of_mem hmv
  simp only [webhookRun, List.mem_cons, List.not_mem_nil, or_false] at hlabel
  rcases hlabel with h | h | h | h | h | h | h | h | h | h | h <;> (rw [h]; trivial)

end Simulation

end WebhookRelay.Wire
