import Mathlib.Data.List.Induction
import AllRelay.Hub.State

/-!
# The screen viewer

`app.js` shows the screen of the phone with a `VideoDecoder`. Its state is a `Viewer`, and each
message handler is a function on it: `handleBinaryFrame` for an access unit, `handleScreenSession`
for the header of a new encoder session, which drops the decoder and its parameter sets, and
`handleScreenInit` for the replay to a viewer that joins late.

What a viewer is configured with after the config frames of a session depends on these frames only
(`configured_configs`): the parameter sets that it had before are replaced.

The browser's `VideoDecoder` is modelled as its specification has it: `configure` asks for a key
frame, and `decode` throws without a configuration, or for a delta frame when a key frame is asked
for.
-/

namespace AllRelay.Browser

/-! ### NAL units -/

/-- The start codes of an Annex B byte stream from a position on, with their lengths. -/
def startCodes (i : ℕ) : Bytes → List (ℕ × ℕ)
  | a :: b :: c :: d :: rest =>
    if a = 0 ∧ b = 0 ∧ c = 1 then (i, 3) :: startCodes (i + 3) (d :: rest)
    else if a = 0 ∧ b = 0 ∧ c = 0 ∧ d = 1 then (i, 4) :: startCodes (i + 4) rest
    else startCodes (i + 1) (b :: c :: d :: rest)
  | _ => []

/-- The bytes between the start codes. -/
def unitsBetween (data : Bytes) : List (ℕ × ℕ) → List Bytes
  | [] => []
  | (index, len) :: starts =>
    let start := index + len
    let stop :=
      match starts with
      | (next, _) :: _ => next
      | [] => data.length
    (if start < stop then [(data.take stop).drop start] else []) ++ unitsBetween data starts

/-- `extractAnnexBNALUnits`. -/
def extractAnnexBNALUnits (data : Bytes) : List Bytes :=
  unitsBetween data (startCodes 0 data)

/-- The type of a NAL unit; an empty one has none. -/
def nalType : Bytes → Option UInt8
  | [] => none
  | header :: _ => some (header &&& 0x1F)

/-- The bytes of a length, most significant first. -/
def bigEndian (length : ℕ) : ℕ → Bytes
  | 0 => []
  | n + 1 => UInt8.ofNat (length >>> (8 * n)) :: bigEndian length n

/-- `annexBAccessUnitToAVCC`. -/
def annexBAccessUnitToAVCC (data : Bytes) : Bytes :=
  (extractAnnexBNALUnits data).flatMap fun nal ↦ bigEndian nal.length 4 ++ nal

/-- `containsIDR`. -/
def containsIDR (nalUnits : List Bytes) : Bool :=
  nalUnits.any fun nal ↦ nalType nal = some 5

/-- `buildAvcC`, for the first parameter sets. -/
def buildAvcC (sps pps : Bytes) : Bytes :=
  [1] ++ (sps.drop 1).take 3 ++ [0xFF, 0xE0 ||| 1] ++ bigEndian sps.length 2 ++ sps ++ [1] ++
    bigEndian pps.length 2 ++ pps

/-! ### The decoder -/

/-- What a decoder is configured with; the codec is `avc1.` with these bytes in hex. -/
structure DecoderConfig where
  codec : Bytes
  description : Bytes
deriving DecidableEq, Repr

/-- `VideoDecoder`. -/
structure VideoDecoder where
  /-- The configuration, if it is configured. -/
  config : Option DecoderConfig
  /-- The next chunk must be a key frame. -/
  keyRequired : Bool
deriving DecidableEq, Repr

/-- `EncodedVideoChunk`. -/
structure EncodedVideoChunk where
  key : Bool
  data : Bytes
deriving DecidableEq, Repr

/-- `new VideoDecoder`. -/
def VideoDecoder.new : VideoDecoder := ⟨none, false⟩

/-- `configure`. -/
def VideoDecoder.configure (_ : VideoDecoder) (config : DecoderConfig) : VideoDecoder :=
  ⟨some config, true⟩

/-- `decode`, which throws unless it accepts the chunk. -/
def VideoDecoder.decode (d : VideoDecoder) (chunk : EncodedVideoChunk) : Option VideoDecoder :=
  if d.config.isNone || d.keyRequired && !chunk.key then none
  else some { d with keyRequired := false }

/-! ### The viewer -/

/-- `screenConfig`. -/
structure ScreenConfig where
  sps : List Bytes
  pps : List Bytes
deriving DecidableEq, Repr

/-- The variables of the screen viewer. -/
structure Viewer where
  /-- `screenActive`. -/
  screenActive : Bool
  /-- `screenDecoder`. -/
  screenDecoder : Option VideoDecoder
  /-- `screenConfigured`. -/
  screenConfigured : Bool
  /-- `screenConfig`. -/
  screenConfig : ScreenConfig
  /-- What `screenConfigKey` spells, none when it is empty. -/
  screenConfigKey : Option DecoderConfig
deriving DecidableEq, Repr

/-- What became of an access unit. -/
inductive Outcome where
  /-- It was ignored: the viewer is not active, or there is no NAL unit. -/
  | ignored
  /-- It is a config frame. -/
  | config
  /-- It was dropped: the decoder is not configured. -/
  | discarded
  /-- It was passed to the decoder. -/
  | passed (chunk : EncodedVideoChunk)
deriving DecidableEq, Repr

namespace Viewer

/-- `resetScreenDecoderForReconfigure`. -/
def resetScreenDecoderForReconfigure (v : Viewer) : Viewer :=
  { v with screenDecoder := none, screenConfigured := false }

/-- `ensureScreenDecoder`. -/
def ensureScreenDecoder (v : Viewer) : VideoDecoder :=
  v.screenDecoder.getD .new

/-- The configuration that `configureScreenDecoderFromConfig` derives from the parameter sets. -/
def decoderConfig (config : ScreenConfig) : Option DecoderConfig :=
  match config.sps, config.pps with
  | sps :: _, pps :: _ =>
    if sps.length < 4 then none else some ⟨(sps.drop 1).take 3, buildAvcC sps pps⟩
  | _, _ => none

/-- `configureScreenDecoderFromConfig`. -/
def configureScreenDecoderFromConfig (v : Viewer) (force : Bool) : Viewer :=
  match decoderConfig v.screenConfig with
  | none => v
  | some config =>
    if v.screenConfigured && !force && v.screenConfigKey = some config then v
    else
      let v := v.resetScreenDecoderForReconfigure
      { v with
        screenDecoder := some (v.ensureScreenDecoder.configure config)
        screenConfigured := true
        screenConfigKey := some config }

/-- `collectScreenConfig`; the second component says whether the parameter sets changed. -/
def collectScreenConfig (v : Viewer) (nalUnits : List Bytes) : Viewer × Bool :=
  let sps := nalUnits.filter fun nal ↦ nalType nal = some 7
  let pps := nalUnits.filter fun nal ↦ nalType nal = some 8
  if sps = [] ∧ pps = [] then (v, false)
  else if v.screenConfig = ⟨sps, pps⟩ then (v, false)
  else
    ({ v with
        screenConfig :=
          ⟨if sps = [] then v.screenConfig.sps else sps,
            if pps = [] then v.screenConfig.pps else pps⟩ }, true)

/-- The part of `handleBinaryFrame` that configures the decoder. -/
def prepareScreenDecoder (v : Viewer) (nalUnits : List Bytes) (isConfig : Bool) : Viewer :=
  let (v, configChanged) := v.collectScreenConfig nalUnits
  if !v.screenConfigured || configChanged || isConfig then
    v.configureScreenDecoderFromConfig (configChanged || isConfig)
  else v

/-- The part of `handleBinaryFrame` that decodes; if `decode` throws, the decoder is dropped. -/
def decodeChunk (v : Viewer) (chunk : EncodedVideoChunk) : Viewer :=
  match v.ensureScreenDecoder.decode chunk with
  | some decoder => { v with screenDecoder := some decoder }
  | none => v.resetScreenDecoderForReconfigure

/-- The chunk of an access unit. -/
def screenChunk (flags : UInt8) (payload : Bytes) : EncodedVideoChunk :=
  ⟨flags &&& 2 ≠ 0 || containsIDR (extractAnnexBNALUnits payload), annexBAccessUnitToAVCC payload⟩

/-- `handleBinaryFrame`. -/
def handleBinaryFrame (v : Viewer) : Bytes → Viewer × Outcome
  | [] => (v, .ignored)
  | flags :: payload =>
    let nalUnits := extractAnnexBNALUnits payload
    if v.screenActive = false ∨ payload = [] ∨ nalUnits = [] then (v, .ignored)
    else
      let v := v.prepareScreenDecoder nalUnits (flags &&& 1 ≠ 0)
      if flags &&& 1 ≠ 0 then (v, .config)
      else if v.screenConfigured = false then (v, .discarded)
      else (v.decodeChunk (screenChunk flags payload), .passed (screenChunk flags payload))

/-- `handleScreenSession`. -/
def handleScreenSession (v : Viewer) (session : ScreenSession) : Viewer :=
  if session.width = 0 ∨ session.height = 0 then v
  else
    { v with screenConfig := ⟨[], []⟩, screenConfigKey := none }.resetScreenDecoderForReconfigure

/-- Some access units, one after the other, with what became of each. -/
def handleFrames (v : Viewer) : List Bytes → Viewer × List (Bytes × Outcome)
  | [] => (v, [])
  | data :: rest =>
    let (v, outcome) := v.handleBinaryFrame data
    let (v, outcomes) := v.handleFrames rest
    (v, (data, outcome) :: outcomes)

/-- `handleScreenInit`. -/
def handleScreenInit (v : Viewer) (init : ScreenInit) : Viewer × List (Bytes × Outcome) :=
  if !v.screenActive then (v, [])
  else
    let v := init.session.elim v v.handleScreenSession
    v.handleFrames ((init.configs ++ init.keyFrame.toList).filter (· ≠ []))

/-- `handleWebSocketMessage`, with the access units that are replayed. -/
def handleMessage (v : Viewer) : WSMessage → Viewer × List (Bytes × Outcome)
  | .screenSession session => (v.handleScreenSession session, [])
  | .screenInit init => v.handleScreenInit init

end Viewer

/-! ### Parameter sets -/

/-- The new parameter sets of a kind, if there are any, and else the old ones. -/
def newer (new old : List Bytes) : List Bytes :=
  if new = [] then old else new

theorem newer_newer (a b c : List Bytes) : newer a (newer b c) = newer (newer a b) c := by
  rcases a with _ | ⟨x, a⟩
  · rfl
  · rfl

/-- The parameter sets of an access unit replace those of the same kind. -/
def ScreenConfig.update (c : ScreenConfig) (nalUnits : List Bytes) : ScreenConfig :=
  ⟨newer (nalUnits.filter fun nal ↦ nalType nal = some 7) c.sps,
    newer (nalUnits.filter fun nal ↦ nalType nal = some 8) c.pps⟩

/-- The parameter sets after some access units. -/
def ScreenConfig.updates (c : ScreenConfig) (units : List (List Bytes)) : ScreenConfig :=
  units.foldl ScreenConfig.update c

/-- Once there are new parameter sets of both kinds, the old ones do not matter. -/
theorem ScreenConfig.updates_eq (c : ScreenConfig) (units : List (List Bytes)) :
    c.updates units =
      ⟨newer (updates ⟨[], []⟩ units).sps c.sps, newer (updates ⟨[], []⟩ units).pps c.pps⟩ := by
  induction units using List.reverseRecOn with
  | nil => rfl
  | append_singleton units nalUnits ih =>
    simp only [updates, List.foldl_append, List.foldl_cons, List.foldl_nil] at ih ⊢
    rw [ih]
    simp only [update, newer_newer]

namespace Viewer

/-- `collectScreenConfig` replaces the parameter sets, also when it says that nothing changed. -/
theorem collectScreenConfig_fst (v : Viewer) (nalUnits : List Bytes) :
    (v.collectScreenConfig nalUnits).1 =
      { v with screenConfig := v.screenConfig.update nalUnits } := by
  rw [collectScreenConfig, ScreenConfig.update]
  split
  · rename_i hnone
    rw [hnone.1, hnone.2]
    rfl
  · split
    · rename_i hsame
      rw [hsame]
      simp only [newer, ite_self]
      rw [← hsame]
    · rfl

theorem collectScreenConfig_of_no_sets (v : Viewer) {nalUnits : List Bytes}
    (h : ∀ nal ∈ nalUnits, nalType nal ≠ some 7 ∧ nalType nal ≠ some 8) :
    v.collectScreenConfig nalUnits = (v, false) := by
  have hsps : (nalUnits.filter fun nal ↦ nalType nal = some 7) = [] :=
    List.filter_eq_nil_iff.2 fun nal hnal ↦ by simpa using (h nal hnal).1
  have hpps : (nalUnits.filter fun nal ↦ nalType nal = some 8) = [] :=
    List.filter_eq_nil_iff.2 fun nal hnal ↦ by simpa using (h nal hnal).2
  rw [collectScreenConfig]
  exact if_pos ⟨hsps, hpps⟩

/-! ### What a handler changes -/

@[simp]
theorem configureScreenDecoderFromConfig_fields (v : Viewer) (force : Bool) :
    (v.configureScreenDecoderFromConfig force).screenActive = v.screenActive ∧
      (v.configureScreenDecoderFromConfig force).screenConfig = v.screenConfig := by
  rw [configureScreenDecoderFromConfig]
  split
  · exact ⟨rfl, rfl⟩
  · split_ifs <;> exact ⟨rfl, rfl⟩

@[simp]
theorem prepareScreenDecoder_fields (v : Viewer) (nalUnits : List Bytes) (isConfig : Bool) :
    (v.prepareScreenDecoder nalUnits isConfig).screenActive = v.screenActive ∧
      (v.prepareScreenDecoder nalUnits isConfig).screenConfig =
        v.screenConfig.update nalUnits := by
  simp only [prepareScreenDecoder, collectScreenConfig_fst]
  split
  · simp only [configureScreenDecoderFromConfig_fields, and_self]
  · simp only [and_self]

@[simp]
theorem decodeChunk_fields (v : Viewer) (chunk : EncodedVideoChunk) :
    (v.decodeChunk chunk).screenActive = v.screenActive ∧
      (v.decodeChunk chunk).screenConfig = v.screenConfig := by
  rw [decodeChunk]
  split <;> exact ⟨rfl, rfl⟩

/-- The handlers leave `screenActive` alone. -/
@[simp]
theorem handleBinaryFrame_screenActive (v : Viewer) (data : Bytes) :
    (v.handleBinaryFrame data).1.screenActive = v.screenActive := by
  rcases data with _ | ⟨flags, payload⟩
  · rfl
  · simp only [handleBinaryFrame]
    split_ifs <;> simp

@[simp]
theorem handleFrames_screenActive (v : Viewer) (frames : List Bytes) :
    (v.handleFrames frames).1.screenActive = v.screenActive := by
  induction frames generalizing v with
  | nil => rfl
  | cons data rest ih => exact (ih _).trans (v.handleBinaryFrame_screenActive data)

@[simp]
theorem handleScreenSession_screenActive (v : Viewer) (session : ScreenSession) :
    (v.handleScreenSession session).screenActive = v.screenActive := by
  rw [handleScreenSession]
  split_ifs <;> rfl

@[simp]
theorem handleMessage_screenActive (v : Viewer) (message : WSMessage) :
    (v.handleMessage message).1.screenActive = v.screenActive := by
  cases message with
  | screenSession session => exact v.handleScreenSession_screenActive session
  | screenInit init =>
    simp only [handleMessage, handleScreenInit]
    split
    · rfl
    · rw [handleFrames_screenActive]
      cases init.session with
      | none => rfl
      | some session => exact v.handleScreenSession_screenActive session

theorem handleFrames_append (v : Viewer) (l l' : List Bytes) :
    v.handleFrames (l ++ l') =
      (((v.handleFrames l).1.handleFrames l').1,
        (v.handleFrames l).2 ++ ((v.handleFrames l).1.handleFrames l').2) := by
  induction l generalizing v with
  | nil => rfl
  | cons data rest ih => simp only [List.cons_append, handleFrames, ih]

theorem handleFrames_singleton (v : Viewer) (data : Bytes) :
    v.handleFrames [data] =
      ((v.handleBinaryFrame data).1, [(data, (v.handleBinaryFrame data).2)]) :=
  rfl

theorem handleFrames_fst (v : Viewer) (l : List Bytes) : (v.handleFrames l).2.map Prod.fst = l := by
  induction l generalizing v with
  | nil => rfl
  | cons data rest ih => exact congrArg (data :: ·) (ih _)

end Viewer

/-! ### The frames of a session -/

/-- A config frame: one with its flag that has a NAL unit. -/
def IsConfigFrame : Bytes → Prop
  | [] => False
  | flags :: payload => flags &&& 1 ≠ 0 ∧ extractAnnexBNALUnits payload ≠ []

/-- A frame that is decoded: it has a NAL unit, and no parameter set. -/
def IsMediaFrame : Bytes → Prop
  | [] => False
  | flags :: payload => flags &&& 1 = 0 ∧ extractAnnexBNALUnits payload ≠ [] ∧
    ∀ nal ∈ extractAnnexBNALUnits payload, nalType nal ≠ some 7 ∧ nalType nal ≠ some 8

/-- The NAL units of a frame. -/
def frameUnits : Bytes → List Bytes
  | [] => []
  | _ :: payload => extractAnnexBNALUnits payload

/-- A frame that is decoded as a key frame. -/
def IsKeyFrame : Bytes → Prop
  | [] => False
  | flags :: payload => (Viewer.screenChunk flags payload).key = true

namespace Viewer

/-- The decoder is configured. -/
def ConfiguredWith (v : Viewer) (config : DecoderConfig) (keyRequired : Bool) : Prop :=
  v.screenConfigured = true ∧ v.screenDecoder = some ⟨some config, keyRequired⟩

theorem payload_ne_nil {payload : Bytes} (h : extractAnnexBNALUnits payload ≠ []) :
    payload ≠ [] := by
  rintro rfl
  exact h rfl

/-- A forced configuration. -/
theorem configureScreenDecoderFromConfig_force {v : Viewer} {config : DecoderConfig}
    (hconfig : decoderConfig v.screenConfig = some config) :
    (v.configureScreenDecoderFromConfig true).ConfiguredWith config true := by
  simp only [configureScreenDecoderFromConfig, hconfig, Bool.not_true, Bool.and_false,
    Bool.false_and, Bool.false_eq_true, if_false]
  exact ⟨rfl, rfl⟩

/-- A config frame configures the decoder anew, if the parameter sets are complete. -/
theorem handleBinaryFrame_config {v : Viewer} {data : Bytes} (hv : v.screenActive = true)
    (hdata : IsConfigFrame data) :
    (v.handleBinaryFrame data).2 = .config ∧
      (v.handleBinaryFrame data).1.screenConfig = v.screenConfig.update (frameUnits data) ∧
      ∀ config, decoderConfig (v.screenConfig.update (frameUnits data)) = some config →
        (v.handleBinaryFrame data).1.ConfiguredWith config true := by
  rcases data with _ | ⟨flags, payload⟩
  · exact hdata.elim
  obtain ⟨hflags, hunits⟩ := hdata
  have hhandle : v.handleBinaryFrame (flags :: payload) =
      (v.prepareScreenDecoder (extractAnnexBNALUnits payload) true, .config) := by
    simp only [handleBinaryFrame]
    rw [if_neg (by simp [hv, hunits, payload_ne_nil hunits]), if_pos hflags, decide_eq_true hflags]
  rw [hhandle]
  refine ⟨rfl, (v.prepareScreenDecoder_fields _ true).2, fun config hconfig ↦ ?_⟩
  simp only [prepareScreenDecoder, collectScreenConfig_fst, Bool.or_true, if_true]
  exact configureScreenDecoderFromConfig_force hconfig

/-- A media frame is passed to a configured decoder, which goes on, if it is no delta frame where a
key frame is asked for. -/
theorem handleBinaryFrame_media {v : Viewer} {data : Bytes} {config : DecoderConfig}
    {keyRequired : Bool} (hv : v.screenActive = true) (hdata : IsMediaFrame data)
    (hconfig : v.ConfiguredWith config keyRequired)
    (hkey : keyRequired = true → IsKeyFrame data) :
    (∃ chunk, (v.handleBinaryFrame data).2 = .passed chunk) ∧
      (v.handleBinaryFrame data).1.ConfiguredWith config false := by
  rcases data with _ | ⟨flags, payload⟩
  · exact hdata.elim
  obtain ⟨hflags, hunits, hsets⟩ := hdata
  obtain ⟨hconfigured, hdecoder⟩ := hconfig
  have hprepare : v.prepareScreenDecoder (extractAnnexBNALUnits payload) false = v := by
    rw [prepareScreenDecoder, v.collectScreenConfig_of_no_sets hsets]
    simp [hconfigured]
  have hhandle : v.handleBinaryFrame (flags :: payload) =
      (v.decodeChunk (screenChunk flags payload), .passed (screenChunk flags payload)) := by
    simp only [handleBinaryFrame]
    rw [if_neg (by simp [hv, hunits, payload_ne_nil hunits]), if_neg (by simpa using hflags),
      decide_eq_false (by simpa using hflags), hprepare, if_neg (by simp [hconfigured])]
  have hdecode : v.decodeChunk (screenChunk flags payload) =
      { v with screenDecoder := some ⟨some config, false⟩ } := by
    rw [decodeChunk, ensureScreenDecoder, hdecoder]
    cases keyRequired with
    | false => rfl
    | true =>
      have hchunk : (screenChunk flags payload).key = true := hkey rfl
      simp [VideoDecoder.decode, hchunk]
  rw [hhandle]
  refine ⟨⟨_, rfl⟩, ?_⟩
  rw [hdecode]
  exact ⟨hconfigured, rfl⟩

/-- Complete parameter sets replace any old ones. -/
theorem decoderConfig_updates {units : List (List Bytes)} {config : DecoderConfig}
    (h : decoderConfig (ScreenConfig.updates ⟨[], []⟩ units) = some config) (c : ScreenConfig) :
    decoderConfig (c.updates units) = some config := by
  rw [c.updates_eq]
  rcases hnew : ScreenConfig.updates ⟨[], []⟩ units with ⟨_ | ⟨sps, spss⟩, _ | ⟨pps, ppss⟩⟩
  all_goals rw [hnew] at h
  · cases h
  · cases h
  · cases h
  · exact h

theorem handleFrames_config {v : Viewer} {l : List Bytes} (hv : v.screenActive = true)
    (hl : ∀ data ∈ l, IsConfigFrame data) :
    (v.handleFrames l).1.screenConfig = v.screenConfig.updates (l.map frameUnits) ∧
      ∀ x ∈ (v.handleFrames l).2, x.2 = .config := by
  induction l generalizing v with
  | nil => exact ⟨rfl, fun x hx ↦ absurd hx List.not_mem_nil⟩
  | cons data rest ih =>
    obtain ⟨houtcome, hconfig, -⟩ := handleBinaryFrame_config hv (hl data List.mem_cons_self)
    have hactive := v.handleBinaryFrame_screenActive data
    obtain ⟨hrest, houtcomes⟩ := ih (hactive.trans hv) fun d hd ↦ hl d (List.mem_cons_of_mem _ hd)
    refine ⟨hrest.trans ?_, fun x hx ↦ ?_⟩
    · rw [hconfig]
      rfl
    · rcases List.mem_cons.1 hx with rfl | hx
      · exact houtcome
      · exact houtcomes x hx

/-- **The config frames decide.** Whatever a viewer was configured with, after the config frames of
a session it is configured with their parameter sets. -/
theorem configured_configs {v : Viewer} {l : List Bytes} {config : DecoderConfig}
    (hv : v.screenActive = true) (hl : ∀ data ∈ l, IsConfigFrame data)
    (hconfig : decoderConfig (ScreenConfig.updates ⟨[], []⟩ (l.map frameUnits)) = some config) :
    (v.handleFrames l).1.ConfiguredWith config true := by
  rcases List.eq_nil_or_concat l with rfl | ⟨init, last, rfl⟩
  · cases hconfig
  rw [List.concat_eq_append] at hl hconfig ⊢
  rw [handleFrames_append]
  have hinit := handleFrames_config hv fun d hd ↦ hl d (List.mem_append_left _ hd)
  have hactive := (v.handleFrames_screenActive init).trans hv
  have hlast := hl last (List.mem_append_right _ List.mem_cons_self)
  obtain ⟨-, -, hconfigured⟩ := handleBinaryFrame_config hactive hlast
  refine hconfigured config ?_
  rw [hinit.1]
  have h := decoderConfig_updates hconfig v.screenConfig
  rwa [List.map_append, ScreenConfig.updates, List.foldl_append] at h

/-- A configured decoder that has had its key frame decodes everything that follows. -/
theorem handleFrames_media {v : Viewer} {l : List Bytes} {config : DecoderConfig}
    (hv : v.screenActive = true) (hl : ∀ data ∈ l, IsMediaFrame data)
    (hconfig : v.ConfiguredWith config false) :
    (v.handleFrames l).1.ConfiguredWith config false ∧
      ∀ x ∈ (v.handleFrames l).2, ∃ chunk, x.2 = .passed chunk := by
  induction l generalizing v with
  | nil => exact ⟨hconfig, fun x hx ↦ absurd hx List.not_mem_nil⟩
  | cons data rest ih =>
    obtain ⟨houtcome, hnext⟩ :=
      handleBinaryFrame_media hv (hl data List.mem_cons_self) hconfig nofun
    have hactive := (v.handleBinaryFrame_screenActive data).trans hv
    obtain ⟨hlast, houtcomes⟩ := ih hactive (fun d hd ↦ hl d (List.mem_cons_of_mem _ hd)) hnext
    refine ⟨hlast, fun x hx ↦ ?_⟩
    rcases List.mem_cons.1 hx with rfl | hx
    · exact houtcome
    · exact houtcomes x hx

end Viewer

/-! ### What is passed to the decoder -/

/-- An access unit was passed to the decoder. -/
def Outcome.isPassed : Outcome → Bool
  | .passed _ => true
  | _ => false

/-- A frame that a viewer with complete parameter sets passes to its decoder. -/
def IsPassable : Bytes → Prop
  | [] => False
  | flags :: payload => flags &&& 1 = 0 ∧ extractAnnexBNALUnits payload ≠ []

/-- The sequence parameter sets of a frame have their first four bytes. -/
def WholeSets (data : Bytes) : Prop :=
  ∀ nal ∈ frameUnits data, nalType nal = some 7 → 4 ≤ nal.length

namespace Viewer

/-- The parameter sets are complete. -/
def Complete (v : Viewer) : Prop :=
  (decoderConfig v.screenConfig).isSome = true

/-- A configured viewer has complete parameter sets. -/
def Coherent (v : Viewer) : Prop :=
  v.screenConfigured = true → v.Complete

theorem decoderConfig_isSome_iff (config : ScreenConfig) :
    (decoderConfig config).isSome = true ↔
      (∃ sps ∈ config.sps.head?, 4 ≤ sps.length) ∧ config.pps ≠ [] := by
  rcases config with ⟨_ | ⟨sps, spss⟩, _ | ⟨pps, ppss⟩⟩
  · simp [decoderConfig]
  · simp [decoderConfig]
  · simp [decoderConfig]
  · by_cases hshort : sps.length < 4
    · simp [decoderConfig, hshort]
    · simp [decoderConfig, hshort, Nat.not_lt.1 hshort]

/-- Whole parameter sets keep the parameter sets complete. -/
theorem decoderConfig_update {config : ScreenConfig} {data : Bytes}
    (h : (decoderConfig config).isSome = true) (hdata : WholeSets data) :
    (decoderConfig (config.update (frameUnits data))).isSome = true := by
  rw [decoderConfig_isSome_iff] at h ⊢
  obtain ⟨⟨sps, hsps, hlength⟩, hpps⟩ := h
  simp only [ScreenConfig.update, newer]
  constructor
  · split
    · exact ⟨sps, hsps, hlength⟩
    · rename_i hnew
      obtain ⟨nal, rest, hnal⟩ := List.exists_cons_of_ne_nil hnew
      have hmem : nal ∈ (frameUnits data).filter fun nal ↦ nalType nal = some 7 :=
        hnal ▸ List.mem_cons_self
      obtain ⟨hunit, htype⟩ := List.mem_filter.1 hmem
      exact ⟨nal, by rw [hnal]; rfl, hdata nal hunit (of_decide_eq_true htype)⟩
  · split
    · exact hpps
    · assumption

/-- What `configureScreenDecoderFromConfig` does to `screenConfigured`. -/
theorem configureScreenDecoderFromConfig_configured (v : Viewer) (force : Bool) :
    (v.configureScreenDecoderFromConfig force).screenConfigured = true ↔
      v.screenConfigured = true ∨ v.Complete := by
  rw [configureScreenDecoderFromConfig, Complete]
  split
  · rename_i hnone
    rw [hnone]
    simp
  · rename_i config hsome
    rw [hsome]
    split
    · rename_i hsame
      simp_all
    · simp

/-- A prepared viewer is configured if it was or if its parameter sets are complete. -/
theorem prepareScreenDecoder_configured (v : Viewer) (nalUnits : List Bytes) (isConfig : Bool) :
    (v.prepareScreenDecoder nalUnits isConfig).screenConfigured = true ↔
      v.screenConfigured = true ∨ (v.prepareScreenDecoder nalUnits isConfig).Complete := by
  rw [Complete, (v.prepareScreenDecoder_fields nalUnits isConfig).2]
  simp only [prepareScreenDecoder, collectScreenConfig_fst]
  split
  · exact configureScreenDecoderFromConfig_configured _ _
  · rename_i hskip
    have hconfigured : v.screenConfigured = true := by simp_all
    simp only [hconfigured, true_or]

/-- Whole parameter sets keep a prepared viewer coherent and complete. -/
theorem prepareScreenDecoder_complete {v : Viewer} {data : Bytes} (isConfig : Bool)
    (hv : v.Complete) (hdata : WholeSets data) :
    (v.prepareScreenDecoder (frameUnits data) isConfig).Complete := by
  rw [Complete, (v.prepareScreenDecoder_fields _ isConfig).2]
  exact decoderConfig_update hv hdata

theorem prepareScreenDecoder_coherent {v : Viewer} {data : Bytes} (isConfig : Bool)
    (hv : v.Coherent) (hdata : WholeSets data) :
    (v.prepareScreenDecoder (frameUnits data) isConfig).Coherent := by
  intro hconfigured
  rcases (v.prepareScreenDecoder_configured _ isConfig).1 hconfigured with hold | hnew
  · exact prepareScreenDecoder_complete isConfig (hv hold) hdata
  · exact hnew

/-- Decoding leaves the parameter sets alone. -/
theorem decodeChunk_coherent {v : Viewer} (chunk : EncodedVideoChunk) (hv : v.Coherent) :
    (v.decodeChunk chunk).Coherent := by
  intro hconfigured
  rw [Complete, (v.decodeChunk_fields chunk).2]
  refine hv ?_
  rw [decodeChunk] at hconfigured
  split at hconfigured
  · exact hconfigured
  · cases hconfigured

/-- An access unit leaves a viewer coherent. -/
theorem handleBinaryFrame_coherent {v : Viewer} {data : Bytes} (hv : v.Coherent)
    (hdata : WholeSets data) : (v.handleBinaryFrame data).1.Coherent := by
  rcases data with _ | ⟨flags, payload⟩
  · exact hv
  have hprepare := prepareScreenDecoder_coherent (flags &&& 1 ≠ 0) hv hdata
  simp only [handleBinaryFrame]
  split
  · exact hv
  split
  · exact hprepare
  split
  · exact hprepare
  · exact decodeChunk_coherent _ hprepare

/-- An access unit leaves the parameter sets of a viewer complete. -/
theorem handleBinaryFrame_complete {v : Viewer} {data : Bytes} (hv : v.Complete)
    (hdata : WholeSets data) : (v.handleBinaryFrame data).1.Complete := by
  rcases data with _ | ⟨flags, payload⟩
  · exact hv
  have hprepare := prepareScreenDecoder_complete (flags &&& 1 ≠ 0) hv hdata
  simp only [handleBinaryFrame]
  split
  · exact hv
  split
  · exact hprepare
  split
  · exact hprepare
  · rw [Complete, (decodeChunk_fields _ _).2]
    exact hprepare

/-- **What is passed**: a frame that can be passed, if the viewer is active and prepared for it. -/
theorem handleBinaryFrame_isPassed_iff (v : Viewer) (flags : UInt8) (payload : Bytes) :
    (v.handleBinaryFrame (flags :: payload)).2.isPassed = true ↔
      v.screenActive = true ∧ IsPassable (flags :: payload) ∧
        (v.prepareScreenDecoder (extractAnnexBNALUnits payload)
          (flags &&& 1 ≠ 0)).screenConfigured = true := by
  simp only [handleBinaryFrame]
  generalize v.prepareScreenDecoder (extractAnnexBNALUnits payload) (flags &&& 1 ≠ 0) = prepared
  by_cases hunits : extractAnnexBNALUnits payload = []
  · simp [hunits, IsPassable, Outcome.isPassed]
  have hpayload := payload_ne_nil hunits
  cases hactive : v.screenActive with
  | false => simp [Outcome.isPassed]
  | true =>
    by_cases hflags : flags &&& 1 = 0
    · cases prepared.screenConfigured with
      | false => simp [hunits, hpayload, hflags, Outcome.isPassed]
      | true => simp [hunits, hpayload, hflags, Outcome.isPassed, IsPassable]
    · simp [hunits, hpayload, hflags, Outcome.isPassed, IsPassable]

/-- What was passed can be passed, and it leaves the parameter sets complete. -/
theorem handleBinaryFrame_of_isPassed {v : Viewer} {data : Bytes}
    (h : (v.handleBinaryFrame data).2.isPassed = true) :
    IsPassable data ∧ v.screenActive = true ∧
      (v.Coherent → WholeSets data → (v.handleBinaryFrame data).1.Complete) := by
  rcases data with _ | ⟨flags, payload⟩
  · cases h
  obtain ⟨hactive, hpass, hconfigured⟩ := (v.handleBinaryFrame_isPassed_iff flags payload).1 h
  refine ⟨hpass, hactive, fun hv hdata ↦ ?_⟩
  have hprepare := prepareScreenDecoder_coherent (flags &&& 1 ≠ 0) hv hdata hconfigured
  simp only [handleBinaryFrame]
  split
  · rename_i hignored
    simp [hactive, hpass.2, payload_ne_nil hpass.2] at hignored
  split
  · exact hprepare
  split
  · exact hprepare
  · rw [Complete, (decodeChunk_fields _ _).2]
    exact hprepare

/-- A viewer with complete parameter sets passes what can be passed. -/
theorem handleBinaryFrame_isPassed {v : Viewer} {data : Bytes} (hactive : v.screenActive = true)
    (hv : v.Complete) (hdata : WholeSets data) (hpass : IsPassable data) :
    (v.handleBinaryFrame data).2.isPassed = true := by
  rcases data with _ | ⟨flags, payload⟩
  · exact hpass.elim
  have hprepare := prepareScreenDecoder_complete (flags &&& 1 ≠ 0) hv hdata
  exact (v.handleBinaryFrame_isPassed_iff flags payload).2
    ⟨hactive, hpass, (v.prepareScreenDecoder_configured _ _).2 (.inr hprepare)⟩

/-- Frames with whole parameter sets, one after the other: a viewer stays coherent and complete, and
one that has passed a frame is complete. -/
theorem handleFrames_coherent {v : Viewer} {l : List Bytes} (hv : v.Coherent)
    (hl : ∀ data ∈ l, WholeSets data) :
    (v.handleFrames l).1.Coherent ∧
      ((v.Complete ∨ ∃ x ∈ (v.handleFrames l).2, x.2.isPassed = true) →
        (v.handleFrames l).1.Complete) := by
  induction l generalizing v with
  | nil =>
    refine ⟨hv, fun h ↦ ?_⟩
    rcases h with h | ⟨x, hx, -⟩
    · exact h
    · cases hx
  | cons data rest ih =>
    have hdata := hl data List.mem_cons_self
    obtain ⟨hcoherent, hcomplete⟩ :=
      ih (handleBinaryFrame_coherent hv hdata) fun d hd ↦ hl d (List.mem_cons_of_mem _ hd)
    refine ⟨hcoherent, fun h ↦ hcomplete ?_⟩
    rcases h with h | ⟨x, hx, hpassed⟩
    · exact .inl (handleBinaryFrame_complete h hdata)
    rcases List.mem_cons.1 hx with rfl | hx
    · exact .inl ((handleBinaryFrame_of_isPassed hpassed).2.2 hv hdata)
    · exact .inr ⟨x, hx, hpassed⟩

/-- What some frames pass can be passed, and the viewer is active. -/
theorem handleFrames_of_isPassed {v : Viewer} {l : List Bytes} {x : Bytes × Outcome}
    (hx : x ∈ (v.handleFrames l).2) (hpassed : x.2.isPassed = true) :
    IsPassable x.1 ∧ v.screenActive = true := by
  induction l generalizing v with
  | nil => cases hx
  | cons data rest ih =>
    rcases List.mem_cons.1 hx with rfl | hx
    · obtain ⟨hpass, hactive, -⟩ := handleBinaryFrame_of_isPassed hpassed
      exact ⟨hpass, hactive⟩
    · obtain ⟨hpass, hactive⟩ := ih hx
      exact ⟨hpass, (v.handleBinaryFrame_screenActive data).symm.trans hactive⟩

/-- **The replay** passes its key frame or nothing. -/
theorem handleScreenInit_passed (v : Viewer) {init : ScreenInit}
    (hconfigs : ∀ data ∈ init.configs, ¬IsPassable data) :
    (v.handleScreenInit init).2.filter (·.2.isPassed) = [] ∨
      ∃ data outcome, init.keyFrame = some data ∧ IsPassable data ∧
        (v.handleScreenInit init).2.filter (·.2.isPassed) = [(data, outcome)] := by
  have hnone : ∀ w : Viewer, (w.handleFrames (init.configs.filter (· ≠ []))).2.filter
      (·.2.isPassed) = [] := by
    intro w
    refine List.filter_eq_nil_iff.2 fun x hx hpassed ↦ ?_
    have hmem : x.1 ∈ init.configs.filter (· ≠ []) := by
      rw [← w.handleFrames_fst (init.configs.filter (· ≠ []))]
      exact List.mem_map_of_mem hx
    exact hconfigs x.1 (List.mem_filter.1 hmem).1 (handleFrames_of_isPassed hx hpassed).1
  rw [handleScreenInit]
  split
  · exact .inl rfl
  dsimp only
  rw [List.filter_append, handleFrames_append]
  dsimp only
  rw [List.filter_append, hnone, List.nil_append]
  cases init.keyFrame with
  | none => exact .inl rfl
  | some data =>
    by_cases hdata : data = []
    · simp [hdata, handleFrames]
    rw [Option.toList_some, List.filter_cons_of_pos (by simpa using hdata), List.filter_nil,
      handleFrames_singleton, List.filter_cons]
    split
    · rename_i hpassed
      exact .inr ⟨data, _, rfl, (handleBinaryFrame_of_isPassed hpassed).1, rfl⟩
    · exact .inl rfl

/-- A replay with a header drops the parameter sets first: afterwards the viewer is coherent, and it
is active and complete if a frame was passed. -/
theorem handleScreenInit_coherent {v : Viewer} {init : ScreenInit} {session : ScreenSession}
    (hv : v.Coherent) (hsession : init.session = some session)
    (hsize : session.width ≠ 0 ∧ session.height ≠ 0)
    (hframes : ∀ data ∈ init.configs ++ init.keyFrame.toList, WholeSets data) :
    (v.handleScreenInit init).1.Coherent ∧
      ((∃ x ∈ (v.handleScreenInit init).2, x.2.isPassed = true) →
        (v.handleScreenInit init).1.screenActive = true ∧
          (v.handleScreenInit init).1.Complete) := by
  rw [handleScreenInit]
  split
  · refine ⟨hv, fun ⟨x, hx, _⟩ ↦ by cases hx⟩
  rename_i hactive
  dsimp only
  rw [hsession, Option.elim_some]
  have hreset : (v.handleScreenSession session).Coherent := by
    rw [handleScreenSession, if_neg (by simp [hsize.1, hsize.2])]
    intro h
    cases h
  obtain ⟨hcoherent, hcomplete⟩ := handleFrames_coherent hreset fun data hdata ↦
    hframes data (List.mem_filter.1 hdata).1
  refine ⟨hcoherent, fun h ↦ ⟨?_, hcomplete (.inr h)⟩⟩
  rw [handleFrames_screenActive, handleScreenSession_screenActive]
  simpa using hactive

end Viewer

/-- What the hub is given for a screen session: its header, its config frames, a key frame and the
frames that follow. -/
structure ScreenFeed where
  session : ScreenSession
  configs : List Bytes
  keyFrame : Bytes
  deltas : List Bytes
deriving DecidableEq, Repr

namespace ScreenFeed

/-- The frames in the order of their broadcast. -/
def frames (f : ScreenFeed) : List Bytes :=
  f.configs ++ f.keyFrame :: f.deltas

/-- What its config frames configure a decoder with. -/
def config (f : ScreenFeed) : Option DecoderConfig :=
  Viewer.decoderConfig (ScreenConfig.updates ⟨[], []⟩ (f.configs.map frameUnits))

/-- The encoder's side: the size is not zero, the parameter sets are in the config frames, and they
are complete. -/
structure WellFormed (f : ScreenFeed) : Prop where
  session : f.session.width ≠ 0 ∧ f.session.height ≠ 0
  configs : ∀ data ∈ f.configs, IsConfigFrame data
  config : f.config.isSome = true
  keyFrame : IsMediaFrame f.keyFrame ∧ IsKeyFrame f.keyFrame
  deltas : ∀ data ∈ f.deltas, IsMediaFrame data

/-- **A session in one piece.** A viewer that handles the frames of a session one after the other is
configured by them at the end, and drops none of them. -/
theorem handleFrames_frames {f : ScreenFeed} (hf : f.WellFormed) {v : Viewer}
    (hv : v.screenActive = true) :
    (∃ config, f.config = some config ∧
      (v.handleFrames f.frames).1.ConfiguredWith config false) ∧
      ∀ x ∈ (v.handleFrames f.frames).2, x.2 ≠ .discarded := by
  obtain ⟨config, hconfig⟩ := Option.isSome_iff_exists.1 hf.config
  have hactive := (v.handleFrames_screenActive f.configs).trans hv
  obtain ⟨⟨chunk, hkey⟩, hnext⟩ := Viewer.handleBinaryFrame_media hactive hf.keyFrame.1
    (Viewer.configured_configs hv hf.configs hconfig) fun _ ↦ hf.keyFrame.2
  have hactive' := (Viewer.handleBinaryFrame_screenActive _ f.keyFrame).trans hactive
  obtain ⟨hlast, houtcomes⟩ := Viewer.handleFrames_media hactive' hf.deltas hnext
  rw [frames, Viewer.handleFrames_append]
  refine ⟨⟨config, hconfig, hlast⟩, fun x hx ↦ ?_⟩
  rcases List.mem_append.1 hx with hx | hx
  · rw [(Viewer.handleFrames_config hv hf.configs).2 x hx]
    nofun
  · rcases List.mem_cons.1 hx with rfl | hx
    · exact fun h ↦ by cases hkey.symm.trans h
    · obtain ⟨chunk', hchunk⟩ := houtcomes x hx
      exact fun h ↦ by cases hchunk.symm.trans h

end ScreenFeed

end AllRelay.Browser
