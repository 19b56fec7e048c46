import AllRelay.Browser.ScreenViewer

/-!
# The decoder protocol of the screen viewer

The calls that the viewer makes on its `VideoDecoder`, over any sequence of access units, session
events, replays and decoder errors. The log of a run has the inputs of the viewer and its calls, in
their order, and the protocol is a property of this log alone (`DecoderProtocol`).

The viewer decodes nothing without a configuration, and the configuration is that of the parameter
sets that it has received since the last session event (`decoder_protocol`). There are two
exceptions. Parameter sets whose first SPS is too short to name a codec configure nothing, and the
decoder keeps the configuration of the sets before. And the viewer does not wait for a key frame:
it passes on whatever chunk comes first, leaves it to `decode` to refuse a delta chunk, and starts
over with a new decoder (`decoder_protocol_exceptions`).
-/

namespace AllRelay.Browser

/-- A call of the viewer on its decoder. -/
inductive DecoderCall where
  /-- `new VideoDecoder`. -/
  | create
  | configure (config : DecoderConfig)
  /-- `accepted` says whether `decode` returned. -/
  | decode (chunk : EncodedVideoChunk) (accepted : Bool)
deriving DecidableEq, Repr

/-- What the viewer reacts to. -/
inductive ViewerEvent where
  /-- A binary frame. -/
  | frame (data : Bytes)
  /-- A text message. -/
  | message (message : WSMessage)
  /-- The browser closed the decoder after a decode error, and called `error`. -/
  | decoderError
deriving DecidableEq, Repr

/-- The parts of an event: a replay is a session event and some frames. -/
inductive ViewerInput where
  | frame (data : Bytes)
  | session (session : ScreenSession)
  | decoderError
deriving DecidableEq, Repr

/-- The parts of an event, in the order in which `handleScreenInit` handles them. -/
def ViewerEvent.inputs : ViewerEvent → List ViewerInput
  | .frame data => [.frame data]
  | .message (.screenSession session) => [.session session]
  | .message (.screenInit init) =>
    init.session.toList.map .session ++
      ((init.configs ++ init.keyFrame.toList).filter (· ≠ [])).map .frame
  | .decoderError => [.decoderError]

/-- An entry of the log. -/
inductive Entry where
  | input (input : ViewerInput)
  | call (call : DecoderCall)
deriving DecidableEq, Repr

namespace Viewer

/-! ### The calls -/

/-- The calls of `configureScreenDecoderFromConfig`. -/
def configureCalls (v : Viewer) (force : Bool) : List DecoderCall :=
  match decoderConfig v.screenConfig with
  | none => []
  | some config =>
    if v.screenConfigured && !force && v.screenConfigKey = some config then []
    else [.create, .configure config]

/-- The calls of the part of `handleBinaryFrame` that configures the decoder. -/
def prepareCalls (v : Viewer) (nalUnits : List Bytes) (isConfig : Bool) : List DecoderCall :=
  let (v, configChanged) := v.collectScreenConfig nalUnits
  if !v.screenConfigured || configChanged || isConfig then
    v.configureCalls (configChanged || isConfig)
  else []

/-- The calls of the part that decodes; `ensureScreenDecoder` may create a decoder. -/
def decodeCalls (v : Viewer) (chunk : EncodedVideoChunk) : List DecoderCall :=
  (if v.screenDecoder.isNone then [.create] else []) ++
    [.decode chunk (v.ensureScreenDecoder.decode chunk).isSome]

/-- The calls of `handleBinaryFrame`. -/
def frameCalls (v : Viewer) : Bytes → List DecoderCall
  | [] => []
  | flags :: payload =>
    let nalUnits := extractAnnexBNALUnits payload
    if v.screenActive = false ∨ payload = [] ∨ nalUnits = [] then []
    else
      let calls := v.prepareCalls nalUnits (flags &&& 1 ≠ 0)
      let v := v.prepareScreenDecoder nalUnits (flags &&& 1 ≠ 0)
      if flags &&& 1 ≠ 0 then calls
      else if v.screenConfigured = false then calls
      else calls ++ v.decodeCalls (screenChunk flags payload)

/-- A decoder error: what is left is a closed decoder, which has no configuration. -/
def decoderError (v : Viewer) : Viewer :=
  { v with screenDecoder := v.screenDecoder.map fun decoder ↦ { decoder with config := none } }

/-- What an input does, with the calls. -/
def handleInput (v : Viewer) : ViewerInput → Viewer × List DecoderCall
  | .frame data => ((v.handleBinaryFrame data).1, v.frameCalls data)
  | .session session => (v.handleScreenSession session, [])
  | .decoderError => (v.decoderError, [])

/-- Some inputs, one after the other, with their part of the log. -/
def handleInputs (v : Viewer) : List ViewerInput → Viewer × List Entry
  | [] => (v, [])
  | input :: rest =>
    let (v, calls) := v.handleInput input
    let (v, log) := v.handleInputs rest
    (v, .input input :: (calls.map .call ++ log))

/-- The viewer as it is when the screen is opened. -/
def opened : Viewer :=
  ⟨true, none, false, ⟨[], []⟩, none⟩

/-- The log of some events, from the opening on. -/
def log (events : List ViewerEvent) : List Entry :=
  (opened.handleInputs (events.flatMap ViewerEvent.inputs)).2

/-- The frames that are handled are inputs. -/
theorem handleInputs_frames (v : Viewer) (l : List Bytes) :
    (v.handleInputs (l.map .frame)).1 = (v.handleFrames l).1 := by
  induction l generalizing v with
  | nil => rfl
  | cons data rest ih => exact ih _

/-- A message is handled as its inputs are. -/
theorem handleInputs_message {v : Viewer} (hv : v.screenActive = true) (message : WSMessage) :
    (v.handleInputs (ViewerEvent.message message).inputs).1 = (v.handleMessage message).1 := by
  match message with
  | .screenSession session => rfl
  | .screenInit ⟨none, configs, keyFrame⟩ =>
    rw [handleMessage, handleScreenInit, hv]
    exact handleInputs_frames _ _
  | .screenInit ⟨some session, configs, keyFrame⟩ =>
    rw [handleMessage, handleScreenInit, hv]
    exact handleInputs_frames _ _

/-- What the part that configures does and calls: it configures a new decoder for the parameter
sets, or it leaves the decoder as it is. It leaves a configured one only if the parameter sets name
no codec or are the same as before. -/
theorem prepareScreenDecoder_cases (v : Viewer) (nalUnits : List Bytes) (isConfig : Bool) :
    (∃ config, decoderConfig (v.screenConfig.update nalUnits) = some config ∧
      v.prepareCalls nalUnits isConfig = [.create, .configure config] ∧
      v.prepareScreenDecoder nalUnits isConfig =
        { v with
          screenConfig := v.screenConfig.update nalUnits
          screenDecoder := some ⟨some config, true⟩
          screenConfigured := true
          screenConfigKey := some config }) ∨
    ((v.screenConfigured = true → decoderConfig (v.screenConfig.update nalUnits) = none ∨
        v.screenConfig.update nalUnits = v.screenConfig) ∧
      v.prepareCalls nalUnits isConfig = [] ∧
      v.prepareScreenDecoder nalUnits isConfig =
        { v with screenConfig := v.screenConfig.update nalUnits }) := by
  have hsets : (v.collectScreenConfig nalUnits).2 = false →
      v.screenConfig.update nalUnits = v.screenConfig := by
    intro hsame
    have hv : (v.collectScreenConfig nalUnits).1 = v := by
      simp only [collectScreenConfig] at hsame ⊢
      split_ifs at hsame ⊢
      · rfl
      · rfl
    rw [collectScreenConfig_fst] at hv
    exact congrArg screenConfig hv
  simp only [prepareCalls, prepareScreenDecoder, collectScreenConfig_fst]
  split
  · rename_i hcond
    simp only [configureCalls, configureScreenDecoderFromConfig]
    rcases hconfig : decoderConfig (v.screenConfig.update nalUnits) with _ | config
    · exact .inr ⟨fun _ ↦ .inl rfl, rfl, rfl⟩
    · -- Either the decoder is not configured or the call is forced: the key is not looked at.
      have hnew : (v.screenConfigured &&
          !((v.collectScreenConfig nalUnits).2 || isConfig)) = false := by
        rw [Bool.or_assoc, Bool.or_eq_true, Bool.not_eq_true'] at hcond
        obtain hunconfigured | hforce := hcond
        · rw [hunconfigured, Bool.false_and]
        · rw [hforce, Bool.not_true, Bool.and_false]
      dsimp only
      rw [hnew, Bool.false_and]
      exact .inl ⟨config, rfl, rfl, rfl⟩
  · rename_i hcond
    refine .inr ⟨fun _ ↦ .inr (hsets ?_), rfl, rfl⟩
    rw [Bool.not_eq_true, Bool.or_assoc, Bool.or_eq_false_iff, Bool.or_eq_false_iff] at hcond
    exact hcond.2.1

/-- A chunk is decoded where `handleBinaryFrame` passes it. -/
theorem mem_frameCalls_decode (v : Viewer) (data : Bytes) (chunk : EncodedVideoChunk) :
    (∃ accepted, DecoderCall.decode chunk accepted ∈ v.frameCalls data) ↔
      (v.handleBinaryFrame data).2 = .passed chunk := by
  rcases data with _ | ⟨flags, payload⟩
  · exact iff_of_false (not_exists.2 fun _ ↦ List.not_mem_nil) Outcome.noConfusion
  have hprepare : ∀ accepted, DecoderCall.decode chunk accepted ∉
      v.prepareCalls (extractAnnexBNALUnits payload) (flags &&& 1 ≠ 0) := by
    intro accepted
    obtain ⟨config, -, hcalls, -⟩ | ⟨-, hcalls, -⟩ :=
      v.prepareScreenDecoder_cases (extractAnnexBNALUnits payload) (flags &&& 1 ≠ 0)
    · rw [hcalls]
      simp
    · rw [hcalls]
      exact List.not_mem_nil
  have hdecode : ∀ (w : Viewer) (c : EncodedVideoChunk),
      (∃ accepted, DecoderCall.decode chunk accepted ∈ w.decodeCalls c) ↔ c = chunk := by
    intro w c
    simp only [decodeCalls]
    split
    · simp [eq_comm]
    · simp [eq_comm]
  simp only [frameCalls, handleBinaryFrame]
  split
  · exact iff_of_false (not_exists.2 fun _ ↦ List.not_mem_nil) Outcome.noConfusion
  split
  · exact iff_of_false (not_exists.2 hprepare) Outcome.noConfusion
  split
  · exact iff_of_false (not_exists.2 hprepare) Outcome.noConfusion
  · simp only [List.mem_append, hprepare, false_or, hdecode, Outcome.passed.injEq]

end Viewer

/-! ### The protocol -/

/-- What has been received since the last session event. -/
structure Received where
  /-- The parameter sets, the most recent of either kind. -/
  sets : ScreenConfig
  /-- The configuration of the most recent ones that name a codec. -/
  config : Option DecoderConfig

/-- What an entry of the log adds. -/
def Received.next (r : Received) : Entry → Received
  | .input (.frame data) =>
    let sets := r.sets.update (frameUnits data)
    ⟨sets, (Viewer.decoderConfig sets).or r.config⟩
  | .input (.session session) =>
    if session.width = 0 ∨ session.height = 0 then r else ⟨⟨[], []⟩, none⟩
  | .input .decoderError => r
  | .call _ => r

/-- What has been received at the end of a log. -/
def received (log : List Entry) : Received :=
  log.foldl .next ⟨⟨[], []⟩, none⟩

/-- An entry that leaves the decoder and its configuration in place. -/
def Entry.KeepsDecoder : Entry → Prop
  | .input _ => True
  | .call .create => False
  | .call (.configure _) => False
  | .call (.decode _ accepted) => accepted = true

/-- A chunk has been passed to the decoder. -/
def Decoded (log : List Entry) : Prop :=
  ∃ chunk accepted, .call (.decode chunk accepted) ∈ log

/-- `config` was passed to `configure`, and since then the decoder was kept. -/
def ConfiguredSince (log : List Entry) (config : DecoderConfig) (since : List Entry) : Prop :=
  (∃ start, log = start ++ .call (.configure config) :: since) ∧ ∀ e ∈ since, e.KeepsDecoder

/-- `decode` is called on a decoder that is configured for the most recent parameter sets that name
a codec, and the first chunk that is accepted after `configure` is a key chunk. -/
def DecoderCall.Allowed (log : List Entry) : DecoderCall → Prop
  | .create => True
  | .configure _ => True
  | .decode chunk accepted =>
    ∃ config since, ConfiguredSince log config since ∧ (received log).config = some config ∧
      (¬Decoded since → accepted = true → chunk.key = true)

/-- Every call is allowed where it is made. -/
def DecoderProtocol (log : List Entry) : Prop :=
  ∀ before call after, log = before ++ .call call :: after → call.Allowed before

/-- As in `Allowed`, but for the most recent parameter sets. -/
def DecoderCall.ForMostRecentSets (log : List Entry) : DecoderCall → Prop
  | .create => True
  | .configure _ => True
  | .decode _ _ =>
    ∃ config since, ConfiguredSince log config since ∧
      Viewer.decoderConfig (received log).sets = some config

/-- As in `Allowed`, but for the first chunk that is passed. -/
def DecoderCall.KeyFirst (log : List Entry) : DecoderCall → Prop
  | .create => True
  | .configure _ => True
  | .decode chunk _ =>
    ∀ config since, ConfiguredSince log config since → ¬Decoded since → chunk.key = true

/-- The protocol without its two exceptions. -/
def StrictDecoderProtocol (log : List Entry) : Prop :=
  ∀ before call after, log = before ++ .call call :: after →
    call.ForMostRecentSets before ∧ call.KeyFirst before

theorem received_append_singleton (log : List Entry) (e : Entry) :
    received (log ++ [e]) = (received log).next e := by
  rw [received, List.foldl_append]
  rfl

/-- The calls receive nothing. -/
theorem received_append_calls (log : List Entry) (calls : List DecoderCall) :
    received (log ++ calls.map .call) = received log := by
  induction calls generalizing log with
  | nil => rw [List.map_nil, List.append_nil]
  | cons call rest ih =>
    rw [List.map_cons, List.append_cons, ih, received_append_singleton]
    rfl

/-- One more entry: only a call has to be allowed. -/
theorem DecoderProtocol.append_singleton {log : List Entry} {e : Entry} (h : DecoderProtocol log)
    (he : ∀ call, e = .call call → call.Allowed log) : DecoderProtocol (log ++ [e]) := by
  intro before call after hsplit
  obtain ⟨mid, rfl, hmid⟩ | ⟨mid, hbefore, hmid⟩ := List.append_eq_append_iff.1 hsplit
  · obtain ⟨rfl, hcall⟩ | ⟨-, hnil⟩ := List.singleton_eq_append_iff.1 hmid
    · rw [List.append_nil]
      exact he call (List.cons.inj hcall).1.symm
    · exact absurd hnil (List.cons_ne_nil _ _)
  · match mid with
    | [] =>
      rw [List.append_nil] at hbefore
      exact hbefore ▸ he call (List.cons.inj hmid).1.symm
    | x :: rest =>
      obtain ⟨rfl, -⟩ := List.cons.inj hmid
      exact h before call rest hbefore

/-- An input asks for nothing. -/
theorem DecoderProtocol.append_input {log : List Entry} (h : DecoderProtocol log)
    (input : ViewerInput) : DecoderProtocol (log ++ [.input input]) :=
  h.append_singleton nofun

/-- A new decoder and its configuration are allowed. -/
theorem DecoderProtocol.append_configure {log : List Entry} (h : DecoderProtocol log)
    (config : DecoderConfig) :
    DecoderProtocol (log ++ [.call .create, .call (.configure config)]) := by
  have hcreate : DecoderProtocol (log ++ [.call .create]) :=
    h.append_singleton fun call hcall ↦ Entry.call.inj hcall ▸ trivial
  have hconfigure := hcreate.append_singleton (e := .call (.configure config)) fun call hcall ↦
    Entry.call.inj hcall ▸ trivial
  rwa [List.append_assoc] at hconfigure

/-! ### The decoder of the viewer -/

/-- What the log says about a decoder: it is configured, and it asks for a key chunk until it has
accepted one. -/
def Holds (log : List Entry) (decoder : VideoDecoder) (config : DecoderConfig) : Prop :=
  ∃ since, ConfiguredSince log config since ∧ (¬Decoded since → decoder.keyRequired = true)

theorem Holds.of_configure (log : List Entry) (config : DecoderConfig) :
    Holds (log ++ [.call .create, .call (.configure config)]) ⟨some config, true⟩ config := by
  refine ⟨[], ⟨⟨log ++ [.call .create], ?_⟩, fun e he ↦ absurd he List.not_mem_nil⟩, fun _ ↦ rfl⟩
  rw [List.append_assoc]
  rfl

/-- It is kept by an entry that keeps the decoder, unless the decoder does not ask for a key chunk
after it. -/
theorem Holds.append_singleton {log : List Entry} {decoder decoder' : VideoDecoder}
    {config : DecoderConfig} (h : Holds log decoder config) {e : Entry} (he : e.KeepsDecoder)
    (hkey : ¬Decoded [e] → decoder.keyRequired = true → decoder'.keyRequired = true) :
    Holds (log ++ [e]) decoder' config := by
  obtain ⟨since, ⟨⟨start, rfl⟩, hkeeps⟩, hrequired⟩ := h
  refine ⟨since ++ [e], ⟨⟨start, ?_⟩, fun e' he' ↦ ?_⟩, fun hnot ↦ hkey ?_ (hrequired ?_)⟩
  · rw [List.append_assoc, List.cons_append]
  · obtain he' | he' := List.mem_append.1 he'
    · exact hkeeps e' he'
    · exact List.mem_singleton.1 he' ▸ he
  · rintro ⟨chunk, accepted, hmem⟩
    exact hnot ⟨chunk, accepted, List.mem_append_right _ hmem⟩
  · rintro ⟨chunk, accepted, hmem⟩
    exact hnot ⟨chunk, accepted, List.mem_append_left _ hmem⟩

/-- A decoder that the log knows may be called, whether it accepts the chunk or not. -/
theorem Holds.allowed {log : List Entry} {decoder : VideoDecoder} {config : DecoderConfig}
    (h : Holds log decoder config) (hconfig : (received log).config = some config)
    (chunk : EncodedVideoChunk) :
    (DecoderCall.decode chunk (decoder.decode chunk).isSome).Allowed log := by
  obtain ⟨since, hsince, hrequired⟩ := h
  refine ⟨config, since, hsince, hconfig, fun hfirst haccepted ↦ ?_⟩
  rw [VideoDecoder.decode, hrequired hfirst, Bool.true_and] at haccepted
  split at haccepted
  · exact Bool.noConfusion haccepted
  · rename_i hkey
    rw [Bool.or_eq_true, not_or, Bool.not_eq_true', Bool.not_eq_false] at hkey
    exact hkey.2

/-- What a log says about the viewer at its end. -/
structure Viewer.Inv (log : List Entry) (v : Viewer) : Prop where
  protocol : DecoderProtocol log
  active : v.screenActive = true
  sets : v.screenConfig = (received log).sets
  usable : ∀ config, Viewer.decoderConfig (received log).sets = some config →
    (received log).config = some config
  configured : v.screenConfigured = true → ∃ decoder config, v.screenDecoder = some decoder ∧
    (received log).config = some config ∧ Holds log decoder config

namespace Viewer.Inv

variable {log : List Entry} {v : Viewer}

theorem opened : Inv [] opened where
  protocol := fun _ _ _ h ↦
    absurd h.symm (List.append_ne_nil_of_right_ne_nil _ (List.cons_ne_nil _ _))
  active := rfl
  sets := rfl
  usable := fun config h ↦ absurd (show none = some config from h) (Option.some_ne_none config).symm
  configured := fun h ↦ Bool.noConfusion h

/-- A session event drops everything. -/
theorem session (hinv : Inv log v) (session : ScreenSession) :
    Inv (log ++ [.input (.session session)]) (v.handleScreenSession session) := by
  have hprotocol := hinv.protocol.append_input (.session session)
  by_cases hsize : session.width = 0 ∨ session.height = 0
  · have hreceived : received (log ++ [.input (.session session)]) = received log := by
      rw [received_append_singleton]
      exact if_pos hsize
    rw [handleScreenSession, if_pos hsize]
    refine ⟨hprotocol, hinv.active, hreceived ▸ hinv.sets, hreceived ▸ hinv.usable, fun h ↦ ?_⟩
    obtain ⟨decoder, config, hdecoder, hconfig, hholds⟩ := hinv.configured h
    exact ⟨decoder, config, hdecoder, hreceived ▸ hconfig,
      hholds.append_singleton trivial fun _ hkey ↦ hkey⟩
  · have hreceived : received (log ++ [.input (.session session)]) = ⟨⟨[], []⟩, none⟩ := by
      rw [received_append_singleton]
      exact if_neg hsize
    rw [handleScreenSession, if_neg hsize]
    refine ⟨hprotocol, hinv.active, hreceived ▸ rfl, fun config hconfig ↦ ?_,
      fun h ↦ Bool.noConfusion h⟩
    rw [hreceived] at hconfig
    exact absurd (show none = some config from hconfig) (Option.some_ne_none config).symm

/-- A decoder that the browser closes stays the decoder of the viewer. -/
theorem decoderError (hinv : Inv log v) :
    Inv (log ++ [.input .decoderError]) v.decoderError := by
  have hreceived : received (log ++ [.input .decoderError]) = received log :=
    received_append_singleton log _
  refine ⟨hinv.protocol.append_input _, hinv.active, hreceived ▸ hinv.sets,
    hreceived ▸ hinv.usable, fun h ↦ ?_⟩
  obtain ⟨decoder, config, hdecoder, hconfig, hholds⟩ := hinv.configured h
  refine ⟨{ decoder with config := none }, config, ?_, hreceived ▸ hconfig,
    hholds.append_singleton trivial fun _ hkey ↦ hkey⟩
  rw [Viewer.decoderError, hdecoder]
  rfl

/-- A frame without a NAL unit, or that only brings parameter sets which change nothing. -/
theorem keep (hinv : Inv log v) {data : Bytes}
    (hsets : v.screenConfigured = true →
      decoderConfig (v.screenConfig.update (frameUnits data)) = none ∨
        v.screenConfig.update (frameUnits data) = v.screenConfig) :
    Inv (log ++ [.input (.frame data)])
      { v with screenConfig := v.screenConfig.update (frameUnits data) } := by
  have hreceived : received (log ++ [.input (.frame data)]) =
      ⟨v.screenConfig.update (frameUnits data),
        (decoderConfig (v.screenConfig.update (frameUnits data))).or (received log).config⟩ := by
    rw [received_append_singleton, hinv.sets]
    rfl
  refine ⟨hinv.protocol.append_input _, hinv.active, (congrArg Received.sets hreceived).symm,
    fun config hconfig ↦ ?_, fun h ↦ ?_⟩
  · rw [hreceived] at hconfig ⊢
    exact congrArg (Option.or · _) hconfig
  obtain ⟨decoder, config, hdecoder, hconfig, hholds⟩ := hinv.configured h
  refine ⟨decoder, config, hdecoder, ?_, hholds.append_singleton trivial fun _ hkey ↦ hkey⟩
  rw [hreceived]
  obtain hnone | hsame := hsets h
  · exact (congrArg (Option.or · _) hnone).trans hconfig
  · -- The same parameter sets: what they configure was received before.
    show (decoderConfig (v.screenConfig.update (frameUnits data))).or _ = some config
    rw [hsame]
    match hold : decoderConfig v.screenConfig with
    | none => exact hconfig
    | some config' => exact (hinv.usable config' (hinv.sets ▸ hold)).symm.trans hconfig

/-- A frame configures the decoder for its parameter sets. -/
theorem configure (hinv : Inv log v) {data : Bytes} {config : DecoderConfig}
    (hconfig : decoderConfig (v.screenConfig.update (frameUnits data)) = some config) :
    Inv (log ++ [.input (.frame data)] ++ [.call .create, .call (.configure config)])
      { v with
        screenConfig := v.screenConfig.update (frameUnits data)
        screenDecoder := some ⟨some config, true⟩
        screenConfigured := true
        screenConfigKey := some config } := by
  have hreceived : received (log ++ [.input (.frame data)] ++
      [.call .create, .call (.configure config)]) =
        ⟨v.screenConfig.update (frameUnits data), some config⟩ := by
    refine (received_append_calls _ [.create, .configure config]).trans ?_
    rw [received_append_singleton]
    simp only [Received.next, ← hinv.sets, hconfig, Option.some_or]
  refine ⟨(hinv.protocol.append_input _).append_configure config, hinv.active,
    (congrArg Received.sets hreceived).symm, fun config' hconfig' ↦ ?_, fun _ ↦ ?_⟩
  · rw [hreceived] at hconfig' ⊢
    exact hconfig.symm.trans hconfig'
  · exact ⟨_, config, rfl, congrArg Received.config hreceived, .of_configure _ config⟩

/-- The part of a frame that configures. -/
theorem prepare (hinv : Inv log v) (data : Bytes) (isConfig : Bool) :
    Inv (log ++ [.input (.frame data)] ++ (v.prepareCalls (frameUnits data) isConfig).map .call)
      (v.prepareScreenDecoder (frameUnits data) isConfig) := by
  obtain ⟨config, hconfig, hcalls, hv⟩ | ⟨hsets, hcalls, hv⟩ :=
    v.prepareScreenDecoder_cases (frameUnits data) isConfig
  · rw [hcalls, hv]
    exact hinv.configure hconfig
  · rw [hcalls, hv, List.map_nil, List.append_nil]
    exact hinv.keep hsets

/-- The part of a frame that decodes, with a configured decoder. -/
theorem decode (hinv : Inv log v) (hv : v.screenConfigured = true) (chunk : EncodedVideoChunk) :
    Inv (log ++ (v.decodeCalls chunk).map .call) (v.decodeChunk chunk) := by
  obtain ⟨decoder, config, hdecoder, hconfig, hholds⟩ := hinv.configured hv
  have hcalls : v.decodeCalls chunk = [.decode chunk (decoder.decode chunk).isSome] := by
    rw [decodeCalls, ensureScreenDecoder, hdecoder]
    rfl
  have hreceived := received_append_calls log (v.decodeCalls chunk)
  have hprotocol : DecoderProtocol (log ++ (v.decodeCalls chunk).map .call) := by
    rw [hcalls]
    refine hinv.protocol.append_singleton fun call hcall ↦ ?_
    exact Entry.call.inj hcall ▸ hholds.allowed hconfig chunk
  obtain ⟨hactive, hsets⟩ := v.decodeChunk_fields chunk
  refine ⟨hprotocol, hactive.trans hinv.active, hsets.trans (hreceived ▸ hinv.sets),
    hreceived ▸ hinv.usable, fun h ↦ ?_⟩
  rw [hreceived, hcalls]
  rw [decodeChunk, ensureScreenDecoder, hdecoder, Option.getD_some] at h ⊢
  rcases haccepted : decoder.decode chunk with _ | decoder'
  · rw [haccepted] at h
    exact Bool.noConfusion h
  · refine ⟨decoder', config, rfl, hconfig, hholds.append_singleton rfl fun hnot _ ↦ ?_⟩
    exact absurd ⟨chunk, true, List.mem_singleton_self _⟩ hnot

/-- A frame. -/
theorem frame (hinv : Inv log v) (data : Bytes) :
    Inv (log ++ .input (.frame data) :: (v.frameCalls data).map .call)
      (v.handleBinaryFrame data).1 := by
  rw [List.append_cons]
  have hignored : frameUnits data = [] → Inv (log ++ [.input (.frame data)]) v := by
    intro hunits
    have hsame : v.screenConfig.update (frameUnits data) = v.screenConfig := by
      rw [hunits]
      rfl
    have hkeep := hinv.keep fun _ ↦ .inr hsame
    rwa [hsame] at hkeep
  match data with
  | [] => exact (List.append_nil _).symm ▸ hignored rfl
  | flags :: payload =>
    have hprepare := hinv.prepare (flags :: payload) (flags &&& 1 ≠ 0)
    simp only [frameCalls, handleBinaryFrame]
    split
    · rename_i hnot
      rw [List.map_nil, List.append_nil]
      refine hignored ?_
      obtain hactive | hpayload | hunits := hnot
      · exact absurd (hactive.symm.trans hinv.active) Bool.false_ne_true
      · rw [hpayload]
        rfl
      · exact hunits
    split
    · exact hprepare
    split
    · exact hprepare
    · rename_i hconfigured
      rw [List.map_append, ← List.append_assoc]
      exact hprepare.decode (Bool.not_eq_false _ ▸ hconfigured) _

/-- An input. -/
theorem handleInput (hinv : Inv log v) (input : ViewerInput) :
    Inv (log ++ .input input :: (v.handleInput input).2.map .call) (v.handleInput input).1 := by
  match input with
  | .frame data => exact hinv.frame data
  | .session session => exact hinv.session session
  | .decoderError => exact hinv.decoderError

/-- Any inputs. -/
theorem handleInputs (hinv : Inv log v) (inputs : List ViewerInput) :
    Inv (log ++ (v.handleInputs inputs).2) (v.handleInputs inputs).1 := by
  induction inputs generalizing log v with
  | nil => exact (List.append_nil log).symm ▸ hinv
  | cons input rest ih =>
    have hrest := ih (hinv.handleInput input)
    rw [List.append_assoc, List.cons_append] at hrest
    exact hrest

end Viewer.Inv

/-- **The decoder protocol.** Whatever the viewer reacts to, in any order: it calls `decode` on
decoders only that it has configured for the most recent parameter sets of the session that name a
codec, and the first chunk that such a decoder accepts is a key chunk. -/
theorem decoder_protocol (events : List ViewerEvent) : DecoderProtocol (Viewer.log events) :=
  (Viewer.Inv.opened.handleInputs (events.flatMap ViewerEvent.inputs)).protocol

/-- **The exceptions.** After the config frame, a key frame that brings an SPS of one byte is
decoded with the configuration of the SPS before. And the viewer does not wait for a key chunk: a
delta chunk after the config frame is the first one passed to `decode`, which refuses it. -/
theorem decoder_protocol_exceptions :
    let configFrame : Bytes := [1, 0, 0, 1, 0x67, 0x42, 0, 0x1E, 0, 0, 1, 0x68, 0xCE]
    let shortFrame : Bytes := [2, 0, 0, 1, 0x67, 0, 0, 1, 0x65, 0x9A]
    let deltaFrame : Bytes := [0, 0, 0, 1, 0x41, 0x9A]
    (∃ before call after,
      Viewer.log [.frame configFrame, .frame shortFrame] = before ++ .call call :: after ∧
        ¬call.ForMostRecentSets before) ∧
    (∃ before call after,
      Viewer.log [.frame configFrame, .frame deltaFrame] = before ++ .call call :: after ∧
        ¬call.KeyFirst before) ∧
    ¬∀ events : List ViewerEvent, StrictDecoderProtocol (Viewer.log events) := by
  intro configFrame shortFrame deltaFrame
  let config : DecoderConfig := ⟨[0x42, 0, 0x1E], buildAvcC [0x67, 0x42, 0, 0x1E] [0x68, 0xCE]⟩
  let configured : List Entry :=
    [.input (.frame configFrame), .call .create, .call (.configure config)]
  have hshort : ∃ before call after,
      Viewer.log [.frame configFrame, .frame shortFrame] = before ++ .call call :: after ∧
        ¬call.ForMostRecentSets before := by
    refine ⟨configured ++ [.input (.frame shortFrame)],
      .decode ⟨true, [0, 0, 0, 1, 0x67, 0, 0, 0, 2, 0x65, 0x9A]⟩ true, [], by decide, ?_⟩
    rintro ⟨config', since, -, hsets⟩
    have hnone : Viewer.decoderConfig
        (received (configured ++ [.input (.frame shortFrame)])).sets = none := by decide
    exact Option.some_ne_none _ (hsets.symm.trans hnone)
  have hdelta : ∃ before call after,
      Viewer.log [.frame configFrame, .frame deltaFrame] = before ++ .call call :: after ∧
        ¬call.KeyFirst before := by
    refine ⟨configured ++ [.input (.frame deltaFrame)],
      .decode ⟨false, [0, 0, 0, 2, 0x41, 0x9A]⟩ false, [], by decide, fun hkey ↦ ?_⟩
    have hkeeps : ∀ e ∈ [Entry.input (.frame deltaFrame)], e.KeepsDecoder :=
      fun e he ↦ List.mem_singleton.1 he ▸ trivial
    refine Bool.false_ne_true (hkey config [.input (.frame deltaFrame)]
      ⟨⟨[.input (.frame configFrame), .call .create], rfl⟩, hkeeps⟩ ?_)
    rintro ⟨chunk, accepted, hmem⟩
    exact Entry.noConfusion (List.mem_singleton.1 hmem)
  refine ⟨hshort, hdelta, fun h ↦ ?_⟩
  obtain ⟨before, call, after, hlog, hnot⟩ := hdelta
  exact hnot (h _ before call after hlog).2

end AllRelay.Browser
