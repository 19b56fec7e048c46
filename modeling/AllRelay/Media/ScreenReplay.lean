import AllRelay.Media.ScreenPath

/-!
# What a late viewer is shown

A viewer that joins gets what the hub has kept of the current generation. The capture of the screen
is not the only one to call the hub: controls are written, routes come and go, and a capture of an
older generation may still be at work. Whatever is in between, a late viewer gets a size, config
frames and a key frame of one and the same pass of the encoder.
-/

open ChunkedReader LabelledSystem Wire

namespace AllRelay.ScreenPath

open Hub (Op History fits hasFlag hasUnit performAll)
open Media.WifiStreamer (Call)
open Video (Config Label State)

/-! ### The calls of a capture -/

/-- A call that the capture of a generation makes. -/
def isCapture (generation : ℕ) : Op → Bool
  | .setSession g _ | .frame g _ => g == generation
  | _ => false

/-- A call that does not end a generation. -/
def Keeps (generation : ℕ) : Op → Prop
  | .beginSession => False
  | .endSession g => g ≠ generation
  | _ => True

/-- The message of a buffer, if it is forwarded. -/
def Buffer.message (b : Buffer) : Option Bytes :=
  if Video.isAnnexB b.payload ≠ some true then none
  else some (flags b.isConfig (b.isKeyFrame && !b.isConfig) :: b.payload)

namespace Pass

variable (p : Pass)

/-- The session of a pass. -/
def session : ScreenSession := ⟨.ofInt p.size.width, .ofInt p.size.height⟩

/-- The messages of a pass. -/
def messages : List Bytes := p.buffers.filterMap Buffer.message

/-- The server takes the size of a pass. -/
def Shown : Prop := 0 < p.session.width ∧ 0 < p.session.height

/-- A call that announces no size, or one that the server takes. -/
def ShownCall : Call → Bool
  | .sessionMeta width height _ => 0 < width && 0 < height
  | _ => true

variable {p}

theorem shown_of_mem {passes : List Pass} (hp : p ∈ passes)
    (h : ∀ call ∈ ScreenPath.calls passes, ShownCall call = true) : p.Shown := by
  have hmem : Call.sessionMeta (.ofInt p.size.width) (.ofInt p.size.height) p.isClientResize ∈
      ScreenPath.calls passes :=
    List.mem_cons_of_mem _ (List.mem_flatMap.2 ⟨p, hp, List.mem_cons_self⟩)
  have hshown := h _ hmem
  rw [ShownCall, Bool.and_eq_true, decide_eq_true_eq, decide_eq_true_eq] at hshown
  exact hshown

theorem ops_eq (h : p.Shown) (generation : ℕ) :
    p.ops generation =
      .setSession generation p.session :: p.messages.map fun data ↦ .frame generation data := by
  have hsession : announce generation (.session (.ofInt p.size.width) (.ofInt p.size.height)) =
      some (.setSession generation p.session) := if_pos h
  have hbuffer (b : Buffer) : announce generation b.content =
      b.message.map fun data ↦ .frame generation data := by
    rw [Buffer.content, announce, Buffer.message]
    split <;> rfl
  rw [ops, contents, List.filterMap_cons, hsession, List.filterMap_map, messages,
    List.map_filterMap]
  exact congrArg _ (List.filterMap_congr fun b _ ↦ hbuffer b)

/-- There is something behind the flags of a message. -/
theorem hasUnit_of_mem {data : Bytes} (h : data ∈ p.messages) : hasUnit data = true := by
  obtain ⟨b, -, hb⟩ := List.mem_filterMap.1 h
  rw [Buffer.message] at hb
  split at hb
  · cases hb
  · rename_i hannexB
    obtain rfl := Option.some.inj hb
    refine decide_eq_true (Nat.succ_lt_succ (List.length_pos_of_ne_nil fun hnil ↦ ?_))
    exact hannexB (by rw [hnil]; decide)

/-- So the hub drops no config frame of them, and no key frame that is small enough. -/
theorem filter_hasUnit {messages : List Bytes} (h : messages <+: p.messages) (flag : UInt8) :
    (messages.filter (hasFlag flag)).filter hasUnit = messages.filter (hasFlag flag) :=
  List.filter_eq_self.2 fun _ hdata ↦ hasUnit_of_mem (h.subset (List.mem_of_mem_filter hdata))

theorem filter_keepsKey {messages : List Bytes} (h : messages <+: p.messages) (flag : UInt8) :
    (messages.filter (hasFlag flag)).filter History.keepsKey =
      (messages.filter (hasFlag flag)).filter fits := by
  refine List.filter_congr fun data hdata ↦ ?_
  rw [History.keepsKey, hasUnit_of_mem (h.subset (List.mem_of_mem_filter hdata)), Bool.true_and]

end Pass

/-! ### The history -/

variable {s : History} {generation : ℕ} {passes : List Pass}

/-- The generation is the current one. -/
def Current (generation : ℕ) (s : History) : Prop :=
  s.generation = generation ∧ s.active = true

theorem Current.accepts (h : Current generation s) (g : ℕ) :
    s.accepts g = (g == generation) := by
  rw [History.accepts, h.1, h.2, Bool.true_and]

theorem Current.next (h : Current generation s) {op : Op} (hop : Keeps generation op) :
    Current generation (s.next op) := by
  cases op with
  | beginSession => exact hop.elim
  | setSession g session | frame g data =>
    rw [History.next]
    split <;> exact h
  | endSession g =>
    rw [History.next, h.accepts, if_neg fun heq ↦ hop (eq_of_beq heq)]
    exact h
  | register | clear | write => exact h

/-- Any other call leaves the history alone. -/
theorem Current.next_eq (h : Current generation s) {op : Op} (hop : Keeps generation op)
    (hother : isCapture generation op = false) : s.next op = s := by
  cases op with
  | beginSession => exact hop.elim
  | setSession g session | frame g data =>
    have hg : (g == generation) = false := hother
    rw [History.next, h.accepts, hg, if_neg Bool.false_ne_true]
  | endSession g => rw [History.next, h.accepts, if_neg fun heq ↦ hop (eq_of_beq heq)]
  | register | clear | write => rfl

/-- Only the calls of the capture matter. -/
theorem Current.foldl_filter (h : Current generation s) {ops : List Op}
    (hops : ∀ op ∈ ops, Keeps generation op) :
    ops.foldl History.next s = (ops.filter (isCapture generation)).foldl History.next s := by
  induction ops generalizing s with
  | nil => rfl
  | cons op ops ih =>
    obtain ⟨hop, hops⟩ := List.forall_mem_cons.1 hops
    rw [List.foldl_cons, ih (h.next hop) hops]
    cases hcapture : isCapture generation op with
    | true => rw [List.filter_cons_of_pos hcapture, List.foldl_cons]
    | false =>
      rw [List.filter_cons_of_neg (ne_true_of_eq_false hcapture), h.next_eq hop hcapture]

/-- The history shows a pass: the pass was announced last, and frames of it followed. -/
def ShowsPass (s : History) (p : Pass) : Prop :=
  s.session = some p.session ∧ s.frames <+: p.messages

/-- Frames are added to the pass. -/
theorem Current.foldl_frames (h : Current generation s) (messages : List Bytes) :
    (messages.map fun data ↦ Op.frame generation data).foldl History.next s =
      { s with frames := s.frames ++ messages } := by
  induction messages generalizing s with
  | nil => rw [List.map_nil, List.foldl_nil, List.append_nil]
  | cons data messages ih =>
    have hnext : s.next (.frame generation data) = { s with frames := s.frames ++ [data] } := by
      rw [History.next, h.accepts, beq_self_eq_true, if_pos rfl]
    have hcurrent : Current generation { s with frames := s.frames ++ [data] } := h
    rw [List.map_cons, List.foldl_cons, hnext, ih hcurrent, List.append_assoc,
      List.singleton_append]

/-- A pass is announced. -/
theorem Current.next_session (h : Current generation s) (session : ScreenSession) :
    s.next (.setSession generation session) =
      { s with session := some session, frames := [] } := by
  rw [History.next, h.accepts, beq_self_eq_true, if_pos rfl]

/-- Whatever part of the passes was announced, the history shows one of them. -/
theorem Current.showsPass (h : Current generation s) (hshown : ∀ p ∈ passes, p.Shown)
    {ops : List Op} (hops : ops <+: passes.flatMap (Pass.ops generation)) :
    ops = [] ∨ ∃ p ∈ passes, ShowsPass (ops.foldl History.next s) p := by
  induction passes generalizing s ops with
  | nil => exact .inl (List.prefix_nil.1 hops)
  | cons p passes ih =>
    obtain ⟨hp, hshown⟩ := List.forall_mem_cons.1 hshown
    rw [List.flatMap_cons, Pass.ops_eq hp, List.cons_append] at hops
    obtain rfl | ⟨calls, rfl, hcalls⟩ := List.prefix_cons_iff.1 hops
    · exact .inl rfl
    refine .inr ?_
    rw [List.foldl_cons, h.next_session]
    have hcurrent : Current generation { s with session := some p.session, frames := [] } := h
    obtain hpart | ⟨rest, rfl⟩ := List.prefix_or_prefix_of_prefix hcalls (List.prefix_append _ _)
    · -- The pass goes on.
      obtain ⟨messages, hmessages, rfl⟩ := List.prefix_map_iff.1 hpart
      refine ⟨p, List.mem_cons_self, ?_⟩
      rw [hcurrent.foldl_frames]
      exact ⟨rfl, hmessages⟩
    · rw [List.prefix_append_right_inj] at hcalls
      rw [List.foldl_append, hcurrent.foldl_frames, List.nil_append]
      have hcurrent' : Current generation
          { s with session := some p.session, frames := p.messages } := h
      obtain rfl | ⟨q, hq, hshows⟩ := ih hcurrent' hshown hcalls
      · exact ⟨p, List.mem_cons_self, rfl, List.prefix_rfl⟩
      · exact ⟨q, List.mem_cons_of_mem _ hq, hshows⟩

/-! ### The replay -/

/-- The history that the hub has after a new generation was begun. -/
theorem history_of_begun (earlier rest : List (Op × Bool)) (ok : Bool) :
    History.of (earlier ++ (.beginSession, ok) :: rest) = (rest.map Prod.fst).foldl History.next
      ⟨(History.of earlier).generation + 1, true, none, []⟩ := by
  rw [History.of, List.foldl_append, List.foldl_cons, List.foldl_map]
  rfl

/-- **A late viewer is shown one pass.** Whatever the hub was called with before, and whatever other
calls come between those of the capture since the generation was begun, as long as it goes on and is
not cancelled: a viewer that joins is shown nothing yet, or the size of one pass of the encoder with
config frames and a key frame of this pass. -/
theorem late_viewer {config : Config} (hstreamer : Streams config.streamer) {labels : List Label}
    {s : State} (h : exec (Video.State.step config) (Video.State.start config) labels = some s)
    (hsane : ∀ l ∈ labels, Sane l) {r : Reader} (hr : r.flatten <+: s.wire)
    {es : List Media.ScreenCapture.Event} {u : Media.ScreenCapture.State}
    (hu : exec Media.ScreenCapture.step (Media.ScreenCapture.start r) es = some u)
    (hregistered : Along Media.ScreenCapture.step Media.ScreenCapture.Registered
      (Media.ScreenCapture.start r) es)
    (earlier rest : List (Op × Bool)) (ok : Bool) {generation : ℕ}
    (hgeneration : generation = (History.of earlier).generation + 1)
    (hkeeps : ∀ op ∈ rest.map Prod.fst, Keeps generation op)
    (hcapture : (rest.map Prod.fst).filter (isCapture generation) <+: hubCalls generation u)
    (hshown : ∀ call ∈ s.written, Pass.ShownCall call = true) :
    ∃ passes, (s.written = calls passes ∨ s.written = [] ∧ passes = []) ∧
      ((performAll (earlier ++ (.beginSession, ok) :: rest)).screenInitMessage =
          .screenInit ⟨none, [], none⟩ ∨
        ∃ p ∈ passes, ∃ messages, messages <+: p.messages ∧
          (performAll (earlier ++ (.beginSession, ok) :: rest)).screenInitMessage =
            .screenInit ⟨some p.session,
              (messages.filter (hasFlag 1)).rtake Hub.maxScreenReplayConfigFrames,
              ((messages.filter (hasFlag 2)).filter fits).getLast?⟩) := by
  obtain ⟨passes, hs⟩ := wrote_exec h hsane
  refine ⟨passes, hs.written, ?_⟩
  have hshown' (p : Pass) (hp : p ∈ passes) : p.Shown := by
    obtain hcalls | ⟨-, rfl⟩ := hs.written
    · exact Pass.shown_of_mem hp (hcalls ▸ hshown)
    · exact absurd hp List.not_mem_nil
  have hcurrent : Current generation ⟨(History.of earlier).generation + 1, true, none, []⟩ :=
    ⟨hgeneration.symm, rfl⟩
  have hinit : (rest.map Prod.fst).filter (isCapture generation) <+:
      passes.flatMap (Pass.ops generation) :=
    hcapture.trans (hs.hubCalls hstreamer hr hu hregistered generation).1
  rw [Hub.screenInitMessage_performAll, history_of_begun, hcurrent.foldl_filter hkeeps]
  obtain hnone | ⟨p, hp, hsession, hmessages⟩ := hcurrent.showsPass hshown' hinit
  · rw [hnone]
    exact .inl rfl
  · refine .inr ⟨p, hp, _, hmessages, ?_⟩
    rw [hsession, History.configs, History.keyFrames, Pass.filter_hasUnit hmessages,
      Pass.filter_keepsKey hmessages]

/-- The calls of the hub in a generation: a control route, a frame of another generation, and the
calls of the capture. -/
def interleaved (u : Media.ScreenCapture.State) : List (Op × Bool) :=
  (.register 1, true) :: (.frame 0 [2, 0, 0, 1, 1], true) ::
    (hubCalls 1 u).map fun op ↦ (op, true)

/-- A viewer joins behind two frames of H.264. -/
theorem late_viewer_twoFrames : ∃ s u passes,
    exec (Video.State.step Video.State.h264Screen) (Video.State.start Video.State.h264Screen)
        (Video.State.upToEncode ++ Video.State.twoFrames) = some s ∧
      exec Media.ScreenCapture.step (Media.ScreenCapture.start [s.wire.take 7, s.wire.drop 7])
        toEnd = some u ∧
      s.written = calls passes ∧
      ∃ p ∈ passes, ∃ messages, messages <+: p.messages ∧
        (performAll ((.beginSession, true) :: interleaved u)).screenInitMessage =
          .screenInit ⟨some p.session,
            (messages.filter (hasFlag 1)).rtake Hub.maxScreenReplayConfigFrames,
            ((messages.filter (hasFlag 2)).filter fits).getLast?⟩ := by
  obtain ⟨s, hs, hrun⟩ := (Option.any_eq_true _ _).1 (show (exec
    (Video.State.step Video.State.h264Screen) (Video.State.start Video.State.h264Screen)
      (Video.State.upToEncode ++ Video.State.twoFrames)).any (fun s ↦ s.written ≠ [] ∧
        (∀ call ∈ s.written, Pass.ShownCall call = true) ∧
        (exec Media.ScreenCapture.step (Media.ScreenCapture.start [s.wire.take 7, s.wire.drop 7])
          toEnd).any (fun u ↦ (∀ op ∈ (interleaved u).map Prod.fst, op ≠ .beginSession ∧
            op ≠ .endSession 1) ∧
            ((interleaved u).map Prod.fst).filter (isCapture 1) = hubCalls 1 u ∧
            (performAll ((.beginSession, true) :: interleaved u)).screenInitMessage ≠
              .screenInit ⟨none, [], none⟩) = true) = true by decide +kernel)
  obtain ⟨hwritten, hshown, hrun⟩ := of_decide_eq_true hrun
  obtain ⟨u, hu, hcalls⟩ := (Option.any_eq_true _ _).1 hrun
  obtain ⟨hkeeps, hcapture, hsome⟩ := of_decide_eq_true hcalls
  have hflatten : List.flatten [s.wire.take 7, s.wire.drop 7] = s.wire := by simp
  have hstreams : Streams Video.State.h264Screen.streamer := ⟨rfl, rfl, rfl, .inl rfl⟩
  have hkeeps' (op : Op) (hop : op ∈ (interleaved u).map Prod.fst) : Keeps 1 op := by
    obtain ⟨hbegin, hend⟩ := hkeeps op hop
    cases op with
    | beginSession => exact absurd rfl hbegin
    | endSession g => exact fun hg ↦ hend (hg ▸ rfl)
    | setSession | register | clear | write | frame => trivial
  obtain ⟨passes, hpasses, hreplay⟩ := late_viewer hstreams hs sane_twoFrames
    (hflatten.symm ▸ List.prefix_rfl) hu (along_toEnd _) [] (interleaved u) true rfl hkeeps'
    (hcapture ▸ List.prefix_rfl) hshown
  exact ⟨s, u, passes, hs, hu, hpasses.resolve_right fun h ↦ hwritten h.1,
    hreplay.resolve_left hsome⟩

end AllRelay.ScreenPath
