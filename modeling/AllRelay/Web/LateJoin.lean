import AllRelay.Web.FrameDelivery

/-!
# A viewer that joins late

The hub keeps the header, the config frames and the last key frame of a screen session. A viewer
that joins late asks for them once, and the reply comes on the text path while the live frames come
on the binary path.

Nothing keeps a live frame apart from the replay. A key frame that is replayed may also be on its
way as a live frame, with older frames before it (`replay_out_of_order`). What holds is `late_join`:
the live frames come in order, the replay passes at most its key frame, and together they are in
order when nothing was passed before the reply and the key frame was not still on its way; for a
viewer that everything has reached, only then.
-/

open LabelledSystem AllRelay.Browser

namespace AllRelay

namespace LateJoin

/-- The request of the viewer. -/
inductive Request where
  | unsent
  | sent
  | answered
deriving DecidableEq, Repr

/-- The hub, the connection of one client and its viewer. -/
structure State extends Delivery.State where
  /-- The request for the replay. -/
  request : Request
  /-- History: how many frames of the session were broadcast when the client was registered. -/
  registeredAt : ℕ
  /-- History: which frame of the session is the cached key frame. -/
  keyAt : Option ℕ
  /-- History: which frame of the session the replay has as its key frame. -/
  replayedKey : Option ℕ

/-- What the scheduler chooses. -/
inductive Event where
  /-- `BroadcastScreenFrame`. -/
  | broadcastScreenFrame (generation : ℕ) (data : Bytes)
  /-- `Hub.Run` registers the client. -/
  | register
  /-- The viewer handles its initial status: it becomes active and asks for the replay. -/
  | status
  /-- `readPump` answers the request. -/
  | reply
  /-- A pump of the client or the viewer moves. -/
  | delivery (e : Delivery.Event)
deriving DecidableEq, Repr

/-- `BroadcastScreenFrame` caches a frame as the key frame. -/
def cachesKey (data : Bytes) : Bool :=
  match data with
  | flags :: _ :: _ => flags &&& 2 ≠ 0 ∧ data.length ≤ Hub.maxScreenReplayFrameBytes
  | _ => false

variable (c : ClientId)

namespace State

/-- `BroadcastScreenFrame`. -/
def broadcastScreenFrame (s : State) (generation : ℕ) (data : Bytes) : State :=
  { s with
    hub := (s.hub.broadcastScreenFrame generation data).1
    published := if s.hub.accepts generation then s.published ++ [data] else s.published
    keyAt :=
      if s.hub.accepts generation ∧ cachesKey data then some s.published.length else s.keyAt }

/-- The client is registered. -/
def register (s : State) : State :=
  { s with
    hub := { s.hub with clients := Function.update s.hub.clients c true }
    registeredAt := s.published.length }

/-- The viewer handles its initial status. -/
def status (s : State) : State :=
  { s with viewer := { s.viewer with screenActive := true }, request := .sent }

/-- The request is answered. -/
def reply (s : State) : State :=
  { s with
    toState := s.setClient c ((s.hub.client c).enqueueText s.hub.screenInitMessage).1
    request := .answered
    replayedKey := s.keyAt }

end State

/-- One step. -/
def step (s : State) : Event → Option State
  | .broadcastScreenFrame generation data => some (s.broadcastScreenFrame generation data)
  | .register => if s.hub.clients c then none else some (s.register c)
  | .status => if s.request = .unsent then some s.status else none
  | .reply => if s.request = .sent then some (s.reply c) else none
  | .delivery e =>
    if e.call.isNone then (Delivery.step c s.toState e).map fun u ↦ { s with toState := u }
    else none

/-- The session is current, and a message to the client is not dropped. -/
def Delivers (s : State) : Event → Prop
  | .broadcastScreenFrame generation _ =>
    s.hub.accepts generation = true ∧
      (s.hub.clients c = true → (s.hub.client c).sendBin.length < binQueueCapacity)
  | .reply => (s.hub.client c).send.length < textQueueCapacity
  | _ => True

instance (s : State) : ∀ e, Decidable (Delivers c s e)
  | .broadcastScreenFrame _ _ => inferInstanceAs (Decidable (_ ∧ (_ → _)))
  | .reply => inferInstanceAs (Decidable (_ < _))
  | .register | .status | .delivery _ => inferInstanceAs (Decidable True)

/-- A session has its header, none of its frames was broadcast, and the client is new. -/
structure Started (s : State) : Prop where
  session : ∃ session, s.hub.screenSession = some session ∧ session.width ≠ 0 ∧ session.height ≠ 0
  cache : s.hub.screenConfigFrames = [] ∧ s.hub.screenKeyFrame = none
  broadcast : s.hub.broadcast = []
  client : s.hub.clients c = false ∧ s.hub.client c = ⟨[], [], false⟩
  pumps : s.textHand = none ∧ s.binHand = none ∧ s.wire = []
  request : s.request = .unsent
  history : s.handled = [] ∧ s.published = [] ∧ s.keyAt = none

/-- A run of a session with a client that joins late. -/
structure Joins (s : State) (es : List Event) (t : State) : Prop where
  started : Started c s
  exec : exec (step c) s es = some t
  delivers : Along (step c) (Delivers c) s es

/-! ### What the viewer passes -/

/-- The frames of a log. -/
def frames (l : List Delivery.Handled) : List Bytes :=
  TwoPaths.rights (l.map Delivery.Handled.message)

/-- The access units that were passed, by their place in the session: live frames are counted from
the one that the client got first, and `key` is the place of the replayed key frame. -/
def passed (key : Option ℕ) : ℕ → List Delivery.Handled → List ℕ
  | _, [] => []
  | n, .frame _ outcome :: rest => (if outcome.isPassed then [n] else []) ++ passed key (n + 1) rest
  | n, .text _ replayed :: rest =>
    (replayed.filter (·.2.isPassed)).flatMap (fun _ ↦ key.toList) ++ passed key n rest

/-- What is claimed: the access units are passed in the order of their broadcast, none twice. -/
def InOrder (s : State) : Prop :=
  (passed s.replayedKey s.registeredAt s.handled).Pairwise (· < ·)

instance (s : State) : Decidable (InOrder s) :=
  inferInstanceAs (Decidable (List.Pairwise ..))

/-- A replay that passes an access unit comes before every live one, and its key frame was broadcast
before the registration or is handled as a live frame before it. -/
def KeyFirst (s : State) : Prop :=
  ∀ before message replayed after, s.handled = before ++ .text message replayed :: after →
    (∃ x ∈ replayed, x.2.isPassed = true) →
      passed none s.registeredAt before = [] ∧
        ∀ j ∈ s.replayedKey, j < s.registeredAt + (frames before).length

/-- There is one replay at most, and it passes the key frame that the hub had cached or nothing. -/
structure ReplayPasses (s : State) : Prop where
  once : (TwoPaths.lefts (s.handled.map Delivery.Handled.message)).length ≤ 1
  key : ∀ message replayed, .text message replayed ∈ s.handled →
    replayed.filter (·.2.isPassed) = [] ∨
      ∃ j data outcome, s.replayedKey = some j ∧ s.published[j]? = some data ∧ IsPassable data ∧
        replayed.filter (·.2.isPassed) = [(data, outcome)]

/-! ### What was sent to the client -/

/-- The text messages that were sent to the client. -/
def sentTexts (s : Delivery.State) : List WSMessage :=
  TwoPaths.lefts (Delivery.paths c s).out ++ s.textPath c

/-- The frames that were sent to the client. -/
def sentFrames (s : Delivery.State) : List Bytes :=
  TwoPaths.rights (Delivery.paths c s).out ++ s.binPath c

/-- What the pumps and the viewer leave alone. -/
structure Keeps (s t : Delivery.State) : Prop where
  hub : t.hub = { s.hub with client := t.hub.client }
  closed : (t.hub.client c).closed = (s.hub.client c).closed
  published : t.published = s.published
  texts : sentTexts c t = sentTexts c s
  frames : sentFrames c t = sentFrames c s

/-- Some frames and the place of the key frame among them, as the hub caches them. -/
structure Cached (published configs : List Bytes) (keyFrame : Option Bytes) (key : Option ℕ) :
    Prop where
  configs : ∀ data ∈ configs, data ∈ published ∧ ¬IsPassable data
  keyFrame : keyFrame = key.bind (published[·]?)
  lt : ∀ j ∈ key, j < published.length

/-- A replay. -/
structure IsReplay (s : State) (init : ScreenInit) : Prop where
  session : ∃ session, init.session = some session ∧ session.width ≠ 0 ∧ session.height ≠ 0
  cached : Cached s.published init.configs init.keyFrame s.replayedKey

/-- The invariant of the paths. -/
structure Inv (s : State) : Prop where
  broadcast : s.hub.broadcast = []
  closed : (s.hub.client c).closed = false
  session : ∃ session, s.hub.screenSession = some session ∧ session.width ≠ 0 ∧ session.height ≠ 0
  cached : Cached s.published s.hub.screenConfigFrames s.hub.screenKeyFrame s.keyAt
  frames : sentFrames c s.toState =
    if s.hub.clients c then s.published.drop s.registeredAt else []
  registeredAt : s.hub.clients c = true → s.registeredAt ≤ s.published.length
  texts : s.request ≠ .answered ∧ sentTexts c s.toState = [] ∨
    s.request = .answered ∧ ∃ init, sentTexts c s.toState = [.screenInit init] ∧ IsReplay s init

variable {c} {s t : State} {e : Event}

theorem keeps_of_paths {s t : Delivery.State} (hhub : t.hub = { s.hub with client := t.hub.client })
    (hclosed : (t.hub.client c).closed = (s.hub.client c).closed)
    (h : Delivery.paths c t = Delivery.paths c s ∧ t.published = s.published) : Keeps c s t where
  hub := hhub
  closed := hclosed
  published := h.2
  texts := congrArg (fun p ↦ TwoPaths.lefts p.out ++ p.left) h.1
  frames := congrArg (fun p ↦ TwoPaths.rights p.out ++ p.right) h.1

/-- **The pumps and the viewer** lose nothing. -/
theorem keeps_delivery {s t : Delivery.State} {e : Delivery.Event} (he : e.call = none)
    (hbroadcast : s.hub.broadcast = []) (ht : Delivery.step c s e = some t) : Keeps c s t := by
  cases e with
  | setScreenSession | broadcastScreenFrame => cases he
  | run =>
    obtain ⟨hub, hhub, -⟩ := Option.map_eq_some_iff.1 ht
    rw [Hub.runBroadcast, hbroadcast] at hhub
    cases hhub
  | textTake =>
    have hpaths := Delivery.paths_of_move_eq_none (e := .textTake) trivial ht rfl
    simp only [Delivery.step, Delivery.State.textTake] at ht
    split at ht <;> cases ht
    exact keeps_of_paths rfl (by simp [Delivery.State.setClient]) hpaths
  | binTake =>
    have hpaths := Delivery.paths_of_move_eq_none (e := .binTake) trivial ht rfl
    simp only [Delivery.step, Delivery.State.binTake] at ht
    split at ht <;> cases ht
    exact keeps_of_paths rfl (by simp [Delivery.State.setClient]) hpaths
  | deliver =>
    have hpaths := Delivery.paths_of_move_eq_none (e := .deliver) trivial ht rfl
    simp only [Delivery.step, Delivery.State.deliver] at ht
    split at ht <;> cases ht
    exact keeps_of_paths rfl rfl hpaths
  | textWrite =>
    have hpaths := Delivery.paths_step (e := .textWrite) trivial ht rfl
    have htexts := TwoPaths.lefts_step hpaths
    have hframes := TwoPaths.rights_step hpaths
    obtain ⟨_, -, ht⟩ := Option.map_eq_some_iff.1 ht
    cases ht
    exact ⟨rfl, rfl, rfl, htexts.trans (List.append_nil _), hframes.trans (List.append_nil _)⟩
  | binWrite =>
    have hpaths := Delivery.paths_step (e := .binWrite) trivial ht rfl
    have htexts := TwoPaths.lefts_step hpaths
    have hframes := TwoPaths.rights_step hpaths
    obtain ⟨_, -, ht⟩ := Option.map_eq_some_iff.1 ht
    cases ht
    exact ⟨rfl, rfl, rfl, htexts.trans (List.append_nil _), hframes.trans (List.append_nil _)⟩

/-! ### The cache -/

theorem Cached.concat {published configs : List Bytes} {keyFrame : Option Bytes} {key : Option ℕ}
    (h : Cached published configs keyFrame key) (data : Bytes) :
    Cached (published ++ [data]) configs keyFrame key where
  configs d hd := ⟨List.mem_append_left _ (h.configs d hd).1, (h.configs d hd).2⟩
  keyFrame := by
    rw [h.keyFrame]
    cases key with
    | none => rfl
    | some j => exact (List.getElem?_append_left (h.lt j rfl)).symm
  lt j hj := Nat.lt_of_lt_of_le (h.lt j hj) (by simp)

/-- A frame goes into the cache of the hub. -/
theorem cached_cacheFrame {h : Hub} {published : List Bytes} {key : Option ℕ} (data : Bytes)
    (hcached : Cached published h.screenConfigFrames h.screenKeyFrame key) :
    Cached (published ++ [data]) (h.cacheFrame data).screenConfigFrames
      (h.cacheFrame data).screenKeyFrame
      (if cachesKey data then some published.length else key) := by
  have hold := hcached.concat data
  rcases data with _ | ⟨flags, _ | ⟨d, rest⟩⟩
  · exact hold
  · exact hold
  refine ⟨fun x hx ↦ ?_, ?_, fun j hj ↦ ?_⟩
  · simp only [Hub.cacheFrame] at hx
    split at hx
    · rename_i hflags
      rcases List.mem_append.1 (List.mem_of_mem_drop hx) with hx | hx
      · exact hold.configs x hx
      · obtain rfl := List.mem_singleton.1 hx
        exact ⟨List.mem_append_right _ hx, fun hpass ↦ hflags hpass.1⟩
    · exact hold.configs x hx
  · simp only [Hub.cacheFrame, cachesKey, decide_eq_true_eq]
    split
    · exact List.getElem?_concat_length.symm
    · exact hold.keyFrame
  · split at hj
    · rw [Option.mem_some_iff] at hj
      subst hj
      rw [List.length_append]
      exact Nat.lt_succ_self _
    · exact hold.lt j hj

/-! ### The invariant -/

theorem Started.inv (h : Started c s) : Inv c s := by
  obtain ⟨hconfigs, hkey⟩ := h.cache
  obtain ⟨hclients, hclient⟩ := h.client
  obtain ⟨htext, hbin, hwire⟩ := h.pumps
  obtain ⟨hhandled, hpublished, hkeyAt⟩ := h.history
  refine ⟨h.broadcast, by rw [hclient], h.session, ?_, ?_, ?_, .inl ⟨?_, ?_⟩⟩
  · rw [hconfigs, hkey, hkeyAt]
    exact ⟨fun _ hx ↦ absurd hx List.not_mem_nil, rfl, nofun⟩
  · simp [sentFrames, Delivery.paths, Delivery.State.binPath, hclients, hclient, hbin, hwire,
      hhandled, TwoPaths.rights]
  · simp [hclients]
  · simp [h.request]
  · simp [sentTexts, Delivery.paths, Delivery.State.textPath, hclient, htext, hwire, hhandled,
      h.broadcast, TwoPaths.lefts]

theorem IsReplay.mono {init : ScreenInit} {data : Bytes} (h : IsReplay s init)
    (hpublished : t.published = s.published ++ [data]) (hkey : t.replayedKey = s.replayedKey) :
    IsReplay t init :=
  ⟨h.session, by rw [hpublished, hkey]; exact h.cached.concat data⟩

/-- The hub after a frame that it accepts. -/
theorem broadcastScreenFrame_eq {h : Hub} {generation : ℕ} (data : Bytes)
    (hgen : h.accepts generation = true) :
    (h.broadcastScreenFrame generation data).1 = (h.cacheFrame data).offerFrame data := by
  rw [Hub.broadcastScreenFrame, if_pos hgen, Hub.publishFrame]

/-- The fields that caching a frame leaves alone. -/
theorem cacheFrame_frame (h : Hub) (data : Bytes) :
    (h.cacheFrame data).clients = h.clients ∧ (h.cacheFrame data).client = h.client ∧
      (h.cacheFrame data).broadcast = h.broadcast ∧
      (h.cacheFrame data).screenSession = h.screenSession := by
  rw [Hub.cacheFrame.eq_def]
  split <;> exact ⟨rfl, rfl, rfl, rfl⟩

theorem enqueueBin_closed (client : Client) (data : Bytes) :
    (client.enqueueBin data).1.closed = client.closed := by
  rw [Client.enqueueBin]
  split_ifs <;> rfl

/-- **A frame is broadcast**: it comes last among the frames that were sent, if the client is
registered. -/
theorem sent_broadcastScreenFrame {generation : ℕ} {data : Bytes} (hs : Inv c s)
    (hC : Delivers c s (.broadcastScreenFrame generation data)) :
    sentTexts c (s.broadcastScreenFrame generation data).toState = sentTexts c s.toState ∧
      sentFrames c (s.broadcastScreenFrame generation data).toState =
        sentFrames c s.toState ++ if s.hub.clients c then [data] else [] := by
  obtain ⟨hgen, hroom⟩ := hC
  cases hclient : s.hub.clients c with
  | true =>
    have hpaths := Delivery.paths_step (c := c) (s := s.toState)
      (e := .broadcastScreenFrame generation data) ⟨hgen, hclient, hs.closed, hroom hclient⟩ rfl rfl
    exact ⟨(TwoPaths.lefts_step hpaths).trans (List.append_nil _), TwoPaths.rights_step hpaths⟩
  | false =>
    have hhub := broadcastScreenFrame_eq data hgen
    obtain ⟨hclients, hheap, hbroadcast, -⟩ := cacheFrame_frame s.hub data
    have hsame : ((s.hub.cacheFrame data).offerFrame data).client c = s.hub.client c := by
      simp only [Hub.offerFrame, hclients, hheap, hclient, Bool.false_eq_true, if_false]
    have hsame' : ((s.hub.cacheFrame data).offerFrame data).broadcast = s.hub.broadcast :=
      hbroadcast
    simp only [sentTexts, sentFrames, Delivery.paths, Delivery.State.textPath,
      Delivery.State.binPath, State.broadcastScreenFrame, hhub, hsame, hsame', Bool.false_eq_true,
      if_false, List.append_nil, and_self]

theorem inv_broadcastScreenFrame {generation : ℕ} {data : Bytes} (hs : Inv c s)
    (hC : Delivers c s (.broadcastScreenFrame generation data)) :
    Inv c (s.broadcastScreenFrame generation data) := by
  obtain ⟨htexts, hframes⟩ := sent_broadcastScreenFrame hs hC
  obtain ⟨hgen, -⟩ := hC
  have hhub := broadcastScreenFrame_eq data hgen
  obtain ⟨hclients, hheap, hbroadcast, hsession⟩ := cacheFrame_frame s.hub data
  have hpublished : (s.broadcastScreenFrame generation data).published = s.published ++ [data] :=
    if_pos hgen
  have hclients' : (s.broadcastScreenFrame generation data).hub.clients = s.hub.clients := by
    rw [State.broadcastScreenFrame, hhub]
    exact hclients
  constructor
  case broadcast =>
    rw [State.broadcastScreenFrame, hhub]
    exact hbroadcast.trans hs.broadcast
  case closed =>
    rw [State.broadcastScreenFrame, hhub]
    simp only [Hub.offerFrame, hheap]
    split
    · rw [enqueueBin_closed, hs.closed]
    · exact hs.closed
  case session =>
    rw [State.broadcastScreenFrame, hhub]
    obtain ⟨session, h, hsize⟩ := hs.session
    exact ⟨session, hsession.trans h, hsize⟩
  case cached =>
    have hcached := cached_cacheFrame data hs.cached
    rw [hpublished]
    simp only [State.broadcastScreenFrame, hhub, hgen, true_and]
    exact hcached
  case frames =>
    rw [hframes, hs.frames, hpublished, hclients']
    split
    · rename_i hclient
      exact (List.drop_append_of_le_length (hs.registeredAt hclient)).symm
    · rfl
  case registeredAt =>
    intro hclient
    rw [hpublished, List.length_append]
    rw [hclients'] at hclient
    exact Nat.le_add_right_of_le (hs.registeredAt hclient)
  case texts =>
    rw [htexts]
    rcases hs.texts with h | ⟨hrequest, init, h, hreplay⟩
    · exact .inl h
    · exact .inr ⟨hrequest, init, h, hreplay.mono hpublished rfl⟩

theorem inv_reply (hs : Inv c s) (hrequest : s.request = .sent)
    (hroom : (s.hub.client c).send.length < textQueueCapacity) : Inv c (s.reply c) := by
  have hclient : ((s.hub.client c).enqueueText s.hub.screenInitMessage).1 =
      { s.hub.client c with send := (s.hub.client c).send ++ [s.hub.screenInitMessage] } := by
    simp only [Client.enqueueText, hs.closed, Bool.false_eq_true, if_false, if_pos hroom]
  have hnone : sentTexts c s.toState = [] := by
    rcases hs.texts with ⟨-, h⟩ | ⟨h, -⟩
    · exact h
    · cases hrequest.symm.trans h
  have htexts : sentTexts c (s.reply c).toState =
      sentTexts c s.toState ++ [s.hub.screenInitMessage] := by
    simp [sentTexts, Delivery.paths, Delivery.State.textPath, State.reply, Delivery.State.setClient,
      hclient, hs.broadcast]
  have hframes : sentFrames c (s.reply c).toState = sentFrames c s.toState := by
    simp [sentFrames, Delivery.paths, Delivery.State.binPath, State.reply, Delivery.State.setClient,
      hclient]
  refine ⟨hs.broadcast, ?_, hs.session, hs.cached, hframes.trans hs.frames, hs.registeredAt,
    .inr ⟨rfl, ⟨s.hub.screenSession, s.hub.screenConfigFrames, s.hub.screenKeyFrame⟩, ?_,
      hs.session, hs.cached⟩⟩
  · simp [State.reply, Delivery.State.setClient, hclient, hs.closed]
  · rw [htexts, hnone]
    rfl

/-- **One step** keeps the invariant. -/
theorem inv_step (hC : Delivers c s e) (hs : Inv c s) (ht : step c s e = some t) : Inv c t := by
  cases e with
  | broadcastScreenFrame generation data =>
    cases ht
    exact inv_broadcastScreenFrame hs hC
  | register =>
    simp only [step] at ht
    split at ht <;> cases ht
    rename_i hclient
    have hframes := hs.frames
    rw [if_neg hclient] at hframes
    refine ⟨hs.broadcast, hs.closed, hs.session, hs.cached, ?_, fun _ ↦ Nat.le_refl _, ?_⟩
    · rw [show sentFrames c (s.register c).toState = [] from hframes]
      simp [State.register]
    · rcases hs.texts with h | ⟨hrequest, init, h, hreplay⟩
      · exact .inl h
      · exact .inr ⟨hrequest, init, h, hreplay.session, hreplay.cached⟩
  | status =>
    simp only [step] at ht
    split at ht <;> cases ht
    rename_i hrequest
    refine ⟨hs.broadcast, hs.closed, hs.session, hs.cached, hs.frames, hs.registeredAt, ?_⟩
    rcases hs.texts with ⟨-, h⟩ | ⟨h, -⟩
    · exact .inl ⟨nofun, h⟩
    · cases hrequest.symm.trans h
  | reply =>
    simp only [step] at ht
    split at ht <;> cases ht
    exact inv_reply hs ‹_› hC
  | delivery e =>
    simp only [step] at ht
    split at ht
    · rename_i hcall
      obtain ⟨u, hu, ht⟩ := Option.map_eq_some_iff.1 ht
      cases ht
      have hkeeps := keeps_delivery (Option.isNone_iff_eq_none.1 hcall) hs.broadcast hu
      have hhub := hkeeps.hub
      refine ⟨?_, hkeeps.closed.trans hs.closed, ?_, ?_, ?_, ?_, ?_⟩
      · rw [hhub]; exact hs.broadcast
      · rw [hhub]; exact hs.session
      · rw [hhub, hkeeps.published]; exact hs.cached
      · rw [hhub, hkeeps.published, hkeeps.frames]; exact hs.frames
      · rw [hhub, hkeeps.published]; exact hs.registeredAt
      · rw [hkeeps.texts]
        rcases hs.texts with h | ⟨hrequest, init, h, hreplay⟩
        · exact .inl h
        · refine .inr ⟨hrequest, init, h, hreplay.session, ?_⟩
          rw [hkeeps.published]
          exact hreplay.cached
    · cases ht

/-! ### What the viewer makes of it -/

/-- The viewer has passed an access unit since its last text message. -/
def running (l : List Delivery.Handled) : Bool :=
  l.foldl (fun running x ↦
    match x with
    | .text _ replayed => replayed.any (·.2.isPassed)
    | .frame _ outcome => running || outcome.isPassed) false

theorem running_concat_text (l : List Delivery.Handled) (message : WSMessage)
    (replayed : List (Bytes × Outcome)) :
    running (l ++ [.text message replayed]) = replayed.any (·.2.isPassed) := by
  simp [running]

theorem running_concat_frame (l : List Delivery.Handled) (data : Bytes) (outcome : Outcome) :
    running (l ++ [.frame data outcome]) = (running l || outcome.isPassed) := by
  simp [running]

/-- What was handled was handled by a viewer. -/
def Genuine (s : State) : Prop :=
  ∀ x ∈ s.handled, ∃ v, x = (Delivery.deliver v x.message).2

/-- The invariant of the viewer. -/
structure Viewing (s : State) : Prop where
  coherent : s.viewer.Coherent
  running : running s.handled = true → s.viewer.screenActive = true ∧ s.viewer.Complete
  /-- Once the viewer has passed an access unit, it passes everything that can be passed. -/
  steady : ∀ before data outcome after, s.handled = before ++ .frame data outcome :: after →
    LateJoin.running before = true → IsPassable data → outcome.isPassed = true

/-- Where an entry of a log can be after one more entry. -/
theorem concat_eq_append_cons {α : Type*} {l before after : List α} {x y : α}
    (h : l ++ [x] = before ++ y :: after) :
    (l = before ∧ x = y) ∨ ∃ after', l = before ++ y :: after' := by
  rcases List.eq_nil_or_concat after with rfl | ⟨after', z, rfl⟩
  · obtain ⟨hbefore, hx⟩ := List.append_inj' h rfl
    exact .inl ⟨hbefore, List.singleton_inj.1 hx⟩
  · rw [List.concat_eq_append, ← List.cons_append, ← List.append_assoc] at h
    exact .inr ⟨after', (List.append_inj' h rfl).1⟩

theorem mem_sentTexts {s : Delivery.State} {message : WSMessage} (h : .inl message ∈ s.wire) :
    message ∈ sentTexts c s :=
  List.mem_append_left _ (List.mem_filterMap.2 ⟨.inl message, List.mem_append_right _ h, rfl⟩)

theorem mem_sentFrames {s : Delivery.State} {data : Bytes} (h : .inr data ∈ s.wire) :
    data ∈ sentFrames c s :=
  List.mem_append_left _ (List.mem_filterMap.2 ⟨.inr data, List.mem_append_right _ h, rfl⟩)

/-- A text message on the wire is a replay of the session. -/
theorem Inv.of_mem_wire {message : WSMessage} (hs : Inv c s) (h : .inl message ∈ s.wire) :
    ∃ init, message = .screenInit init ∧ IsReplay s init := by
  have hmem : message ∈ sentTexts c s.toState := mem_sentTexts h
  rcases hs.texts with ⟨-, htexts⟩ | ⟨-, init, htexts, hreplay⟩
  · rw [htexts] at hmem
    cases hmem
  · rw [htexts] at hmem
    exact ⟨init, List.mem_singleton.1 hmem, hreplay⟩

/-- A frame on the wire is one of the session. -/
theorem Inv.mem_published {data : Bytes} (hs : Inv c s) (h : .inr data ∈ s.wire) :
    data ∈ s.published := by
  have hmem : data ∈ sentFrames c s.toState := mem_sentFrames h
  rw [hs.frames] at hmem
  split at hmem
  · exact List.mem_of_mem_drop hmem
  · cases hmem

/-- The frames of a replay are frames of the session. -/
theorem IsReplay.mem_published {init : ScreenInit} (h : IsReplay s init) {data : Bytes}
    (hdata : data ∈ init.configs ++ init.keyFrame.toList) : data ∈ s.published := by
  rcases List.mem_append.1 hdata with hdata | hdata
  · exact (h.cached.configs data hdata).1
  · rw [Option.mem_toList, h.cached.keyFrame] at hdata
    obtain ⟨j, -, hj⟩ := Option.bind_eq_some_iff.1 hdata
    exact List.mem_of_getElem? hj

/-- **The viewer handles a message** of the session. -/
theorem viewing_deliver {message : Delivery.Wire} (hinv : Inv c s) (hs : Viewing s)
    (hwhole : ∀ data ∈ s.published, WholeSets data) (hmem : message ∈ s.wire)
    (hviewer : t.viewer = (Delivery.deliver s.viewer message).1)
    (hhandled : t.handled = s.handled ++ [(Delivery.deliver s.viewer message).2]) : Viewing t := by
  cases message with
  | inl message =>
    obtain ⟨init, rfl, hreplay⟩ := hinv.of_mem_wire hmem
    obtain ⟨session, hsession, hsize⟩ := hreplay.session
    obtain ⟨hcoherent, hcomplete⟩ := Viewer.handleScreenInit_coherent hs.coherent hsession hsize
      fun data hdata ↦ hwhole data (hreplay.mem_published hdata)
    refine ⟨hviewer ▸ hcoherent, fun hrunning ↦ ?_, fun before data outcome after h ↦ ?_⟩
    · rw [hhandled, Delivery.deliver, running_concat_text, List.any_eq_true] at hrunning
      rw [hviewer]
      exact hcomplete hrunning
    · rw [hhandled] at h
      rcases concat_eq_append_cons h with ⟨-, h⟩ | ⟨after', h⟩
      · cases h
      · exact hs.steady before data outcome after' h
  | inr data =>
    have hdata := hwhole data (hinv.mem_published hmem)
    refine ⟨?_, fun hrunning ↦ ?_, fun before data' outcome after h hbefore hpass ↦ ?_⟩
    · rw [hviewer]
      exact Viewer.handleBinaryFrame_coherent hs.coherent hdata
    · rw [hhandled, Delivery.deliver, running_concat_frame, Bool.or_eq_true] at hrunning
      rw [hviewer]
      rcases hrunning with hold | hnew
      · obtain ⟨hactive, hcomplete⟩ := hs.running hold
        exact ⟨(Viewer.handleBinaryFrame_screenActive _ _).trans hactive,
          Viewer.handleBinaryFrame_complete hcomplete hdata⟩
      · obtain ⟨-, hactive, hcomplete⟩ := Viewer.handleBinaryFrame_of_isPassed hnew
        exact ⟨(Viewer.handleBinaryFrame_screenActive _ _).trans hactive,
          hcomplete hs.coherent hdata⟩
    · rw [hhandled] at h
      rcases concat_eq_append_cons h with ⟨rfl, hx⟩ | ⟨after', h⟩
      · cases hx
        obtain ⟨hactive, hcomplete⟩ := hs.running hbefore
        exact Viewer.handleBinaryFrame_isPassed hactive hcomplete hdata hpass
      · exact hs.steady before data' outcome after' h hbefore hpass

/-- What a step can do to the viewer: nothing, make it active, or have it handle a message. -/
theorem step_viewer (ht : step c s e = some t) :
    (t.handled = s.handled ∧
      (t.viewer = s.viewer ∨ t.viewer = { s.viewer with screenActive := true })) ∨
      ∃ message ∈ s.wire, t.viewer = (Delivery.deliver s.viewer message).1 ∧
        t.handled = s.handled ++ [(Delivery.deliver s.viewer message).2] := by
  cases e with
  | broadcastScreenFrame generation data =>
    cases ht
    exact .inl ⟨rfl, .inl rfl⟩
  | register =>
    simp only [step] at ht
    split at ht <;> cases ht
    exact .inl ⟨rfl, .inl rfl⟩
  | status =>
    simp only [step] at ht
    split at ht <;> cases ht
    exact .inl ⟨rfl, .inr rfl⟩
  | reply =>
    simp only [step] at ht
    split at ht <;> cases ht
    exact .inl ⟨rfl, .inl rfl⟩
  | delivery e =>
    simp only [step] at ht
    split at ht
    · rename_i hcall
      obtain ⟨u, hu, ht⟩ := Option.map_eq_some_iff.1 ht
      cases ht
      cases e with
      | setScreenSession | broadcastScreenFrame => cases hcall
      | run | textWrite | binWrite =>
        obtain ⟨_, -, hu⟩ := Option.map_eq_some_iff.1 hu
        cases hu
        exact .inl ⟨rfl, .inl rfl⟩
      | textTake =>
        simp only [Delivery.step, Delivery.State.textTake] at hu
        split at hu <;> cases hu
        exact .inl ⟨rfl, .inl rfl⟩
      | binTake =>
        simp only [Delivery.step, Delivery.State.binTake] at hu
        split at hu <;> cases hu
        exact .inl ⟨rfl, .inl rfl⟩
      | deliver =>
        simp only [Delivery.step, Delivery.State.deliver] at hu
        split at hu <;> cases hu
        rename_i message rest hwire
        exact .inr ⟨message, hwire ▸ List.mem_cons_self, rfl, rfl⟩
    · cases ht

/-! ### The order in a log -/

section Log

variable {l l' : List Delivery.Handled} {n : ℕ} {key : Option ℕ}

/-- A log of frames only. -/
def IsLive (l : List Delivery.Handled) : Prop :=
  TwoPaths.lefts (l.map Delivery.Handled.message) = []

theorem frames_append (l l' : List Delivery.Handled) :
    frames (l ++ l') = frames l ++ frames l' := by
  rw [frames, List.map_append, TwoPaths.rights_append]
  rfl

theorem passed_append (key : Option ℕ) (n : ℕ) (l l' : List Delivery.Handled) :
    passed key n (l ++ l') = passed key n l ++ passed key (n + (frames l).length) l' := by
  induction l generalizing n with
  | nil => rfl
  | cons x rest ih =>
    cases x with
    | text message replayed =>
      rw [List.cons_append, passed, passed, ih, List.append_assoc]
      rfl
    | frame data outcome =>
      have hlength : (frames (.frame data outcome :: rest)).length = (frames rest).length + 1 := rfl
      rw [List.cons_append, passed, passed, ih, List.append_assoc, hlength,
        Nat.add_assoc, Nat.add_comm 1]

theorem passed_none_text (n : ℕ) (message : WSMessage) (replayed : List (Bytes × Outcome)) :
    passed none n (.text message replayed :: l) = passed none n l := by
  simp [passed]

/-- Live frames are counted on from the first one. -/
theorem mem_passed_none {i : ℕ} (h : i ∈ passed none n l) : n ≤ i ∧ i < n + (frames l).length := by
  induction l generalizing n with
  | nil => cases h
  | cons x rest ih =>
    cases x with
    | text message replayed =>
      rw [passed_none_text] at h
      exact ih h
    | frame data outcome =>
      have hlength : (frames (.frame data outcome :: rest)).length = (frames rest).length + 1 := rfl
      rw [passed, List.mem_append] at h
      rcases h with h | h
      · split at h
        · obtain rfl := List.mem_singleton.1 h
          omega
        · cases h
      · have := ih h
        omega

/-- **Live frames come in order.** -/
theorem pairwise_passed_none (n : ℕ) (l : List Delivery.Handled) :
    (passed none n l).Pairwise (· < ·) := by
  induction l generalizing n with
  | nil => exact List.Pairwise.nil
  | cons x rest ih =>
    cases x with
    | text message replayed =>
      rw [passed_none_text]
      exact ih n
    | frame data outcome =>
      rw [passed]
      refine List.pairwise_append.2 ⟨?_, ih (n + 1), fun i hi j hj ↦ ?_⟩
      · split
        · exact List.pairwise_singleton ..
        · exact List.Pairwise.nil
      · have hj := (mem_passed_none hj).1
        split at hi
        · obtain rfl := List.mem_singleton.1 hi
          exact hj
        · cases hi

theorem passed_of_isLive (h : IsLive l) : passed key n l = passed none n l := by
  induction l generalizing n with
  | nil => rfl
  | cons x rest ih =>
    cases x with
    | text message replayed => cases h
    | frame data outcome => exact congrArg (_ ++ ·) (ih h)

theorem isLive_append : IsLive (l ++ l') ↔ IsLive l ∧ IsLive l' := by
  rw [IsLive, List.map_append, TwoPaths.lefts_append, List.append_eq_nil_iff]
  exact Iff.rfl

theorem isLive_concat_frame {data : Bytes} {outcome : Outcome} :
    IsLive (l ++ [.frame data outcome]) ↔ IsLive l := by
  rw [IsLive, List.map_append, TwoPaths.lefts_append]
  exact iff_of_eq (congrArg (· = []) (List.append_nil _))

theorem not_isLive_concat_text {message : WSMessage} {replayed : List (Bytes × Outcome)} :
    ¬IsLive (l ++ [.text message replayed]) := by
  rw [IsLive, List.map_append, TwoPaths.lefts_append]
  exact List.append_ne_nil_of_right_ne_nil _ (List.cons_ne_nil message [])

theorem exists_text_of_not_isLive (h : ¬IsLive l) : ∃ before message replayed after,
    l = before ++ .text message replayed :: after := by
  induction l with
  | nil => exact absurd rfl h
  | cons x rest ih =>
    cases x with
    | text message replayed => exact ⟨[], message, replayed, rest, rfl⟩
    | frame data outcome =>
      obtain ⟨before, message, replayed, after, hrest⟩ := ih h
      exact ⟨.frame data outcome :: before, message, replayed, after, by rw [hrest]; rfl⟩

theorem running_append (h : IsLive l') : running (l ++ l') = (running l || running l') := by
  induction l' using List.reverseRecOn with
  | nil => simp [running]
  | append_singleton l' x ih =>
    cases x with
    | text message replayed => exact absurd h not_isLive_concat_text
    | frame data outcome =>
      rw [← List.append_assoc, running_concat_frame, running_concat_frame,
        ih (isLive_concat_frame.1 h), Bool.or_assoc]

/-- A viewer is running once it has passed a live frame. -/
theorem running_iff (h : IsLive l) : running l = true ↔ passed none n l ≠ [] := by
  induction l using List.reverseRecOn with
  | nil => simp [running, passed]
  | append_singleton l x ih =>
    cases x with
    | text message replayed => exact absurd h not_isLive_concat_text
    | frame data outcome =>
      rw [running_concat_frame, Bool.or_eq_true, ih (isLive_concat_frame.1 h), passed_append]
      cases hpassed : outcome.isPassed <;> simp [passed, hpassed]

/-- The entry of a live frame. -/
theorem exists_of_getElem?_frames {i : ℕ} {data : Bytes} (h : (frames l)[i]? = some data) :
    ∃ before outcome after, l = before ++ .frame data outcome :: after ∧
      (frames before).length = i := by
  induction l generalizing i with
  | nil => cases h
  | cons x rest ih =>
    cases x with
    | text message replayed =>
      obtain ⟨before, outcome, after, hrest, hlength⟩ := ih h
      exact ⟨.text message replayed :: before, outcome, after, by rw [hrest]; rfl, hlength⟩
    | frame d outcome =>
      cases i with
      | zero =>
        cases h
        exact ⟨[], outcome, rest, rfl, rfl⟩
      | succ i =>
        obtain ⟨before, outcome', after, hrest, hlength⟩ := ih (i := i) h
        exact ⟨.frame d outcome :: before, outcome', after, by rw [hrest]; rfl,
          congrArg (· + 1) hlength⟩

/-- A live frame that was passed is counted. -/
theorem mem_passed_of_isPassed (data : Bytes) {outcome : Outcome} (h : outcome.isPassed = true)
    (key : Option ℕ) (n : ℕ) (before after : List Delivery.Handled) :
    n + (frames before).length ∈ passed key n (before ++ .frame data outcome :: after) := by
  rw [passed_append, passed, if_pos h]
  exact List.mem_append_right _ (List.mem_append_left _ List.mem_cons_self)

end Log

/-! ### The replay and the live frames -/

theorem sentFrames_eq (c : ClientId) (s : Delivery.State) :
    sentFrames c s = frames s.handled ++ (TwoPaths.rights s.wire ++ s.binPath c) := by
  rw [sentFrames, Delivery.paths, TwoPaths.rights_append, List.append_assoc]
  rfl

/-- **The live frames** are those of the session since the registration, in order. -/
theorem live_frames (hs : Inv c s) :
    frames s.handled <+: s.published.drop s.registeredAt := by
  have h : frames s.handled <+: sentFrames c s.toState := ⟨_, (sentFrames_eq c s.toState).symm⟩
  rw [hs.frames] at h
  split at h
  · exact h
  · rw [List.prefix_nil.1 h]
    exact List.nil_prefix

/-- The text messages that were handled: the replay at most. -/
theorem handled_texts (hs : Inv c s) :
    TwoPaths.lefts (s.handled.map Delivery.Handled.message) = [] ∨
      ∃ init, TwoPaths.lefts (s.handled.map Delivery.Handled.message) = [.screenInit init] ∧
        IsReplay s init := by
  have hsent : sentTexts c s.toState = TwoPaths.lefts (s.handled.map Delivery.Handled.message) ++
      (TwoPaths.lefts s.wire ++ s.textPath c) := by
    rw [sentTexts, Delivery.paths, TwoPaths.lefts_append, List.append_assoc]
  rcases hs.texts with ⟨-, htexts⟩ | ⟨-, init, htexts, hreplay⟩
  · rw [hsent] at htexts
    exact .inl (List.append_eq_nil_iff.1 htexts).1
  · rw [hsent] at htexts
    rcases List.append_eq_singleton_iff.1 htexts with ⟨hnone, -⟩ | ⟨hone, -⟩
    · exact .inl hnone
    · exact .inr ⟨init, hone, hreplay⟩

/-- **The replay** passes its key frame at most. -/
theorem replayPasses (hs : Inv c s) (hgenuine : Genuine s) : ReplayPasses s := by
  refine ⟨?_, fun message replayed hmem ↦ ?_⟩
  · rcases handled_texts hs with h | ⟨init, h, -⟩
    · rw [h]
      exact Nat.zero_le _
    · rw [h]
      exact Nat.le_refl _
  have hmessage : message ∈ TwoPaths.lefts (s.handled.map Delivery.Handled.message) :=
    List.mem_filterMap.2 ⟨.inl message, List.mem_map_of_mem hmem, rfl⟩
  rcases handled_texts hs with h | ⟨init, h, hreplay⟩
  · rw [h] at hmessage
    cases hmessage
  · rw [h] at hmessage
    obtain rfl := List.mem_singleton.1 hmessage
    obtain ⟨v, hv⟩ := hgenuine _ hmem
    cases hv
    rcases v.handleScreenInit_passed fun data hdata ↦ (hreplay.cached.configs data hdata).2 with
      hnone | ⟨data, outcome, hkey, hpass, hpassed⟩
    · exact .inl hnone
    · rw [hreplay.cached.keyFrame] at hkey
      obtain ⟨j, hj, hdata⟩ := Option.bind_eq_some_iff.1 hkey
      exact .inr ⟨j, data, outcome, hj, hdata, hpass, hpassed⟩

/-- Around the replay there are live frames only. -/
theorem ReplayPasses.isLive {before after : List Delivery.Handled} {message : WSMessage}
    {replayed : List (Bytes × Outcome)} (hs : ReplayPasses s)
    (h : s.handled = before ++ .text message replayed :: after) : IsLive before ∧ IsLive after := by
  have honce := hs.once
  have hcons : TwoPaths.lefts ((.text message replayed :: after).map Delivery.Handled.message) =
      message :: TwoPaths.lefts (after.map Delivery.Handled.message) := rfl
  rw [h, List.map_append, TwoPaths.lefts_append, hcons, List.length_append, List.length_cons]
    at honce
  exact ⟨List.eq_nil_of_length_eq_zero (by omega), List.eq_nil_of_length_eq_zero (by omega)⟩

/-- **Key frame first is enough.** -/
theorem KeyFirst.inOrder (hreplay : ReplayPasses s) (hkey : KeyFirst s) : InOrder s := by
  rw [InOrder]
  by_cases hlive : IsLive s.handled
  · rw [passed_of_isLive hlive]
    exact pairwise_passed_none _ _
  obtain ⟨before, message, replayed, after, hhandled⟩ := exists_text_of_not_isLive hlive
  obtain ⟨hbefore, hafter⟩ := hreplay.isLive hhandled
  have hmem : .text message replayed ∈ s.handled := by
    rw [hhandled]
    exact List.mem_append_right _ List.mem_cons_self
  rw [hhandled, passed_append, passed, passed_of_isLive hbefore, passed_of_isLive hafter]
  rcases hreplay.key message replayed hmem with hnone | ⟨j, data, outcome, hj, -, -, hpassed⟩
  · -- The replay passes nothing.
    rw [hnone, List.flatMap_nil, List.nil_append, ← passed_append]
    exact pairwise_passed_none _ _
  · obtain ⟨hfirst, hlt⟩ := hkey before message replayed after hhandled
      ⟨(data, outcome), List.mem_filter.1 (hpassed ▸ List.mem_cons_self)⟩
    rw [hpassed, hj, hfirst]
    refine List.pairwise_cons.2 ⟨fun i hi ↦ ?_, pairwise_passed_none _ _⟩
    exact Nat.lt_of_lt_of_le (hlt j hj) (mem_passed_none hi).1

/-- Everything that the hub sent to the registered client was handled. -/
def Settled (c : ClientId) (s : State) : Prop :=
  s.hub.clients c = true ∧ Delivery.Drained c s.toState

theorem frames_of_settled (hs : Inv c s) (h : Settled c s) :
    frames s.handled = s.published.drop s.registeredAt := by
  obtain ⟨hclient, -, hbin, hwire⟩ := h
  have hframes := hs.frames
  rw [if_pos hclient, sentFrames_eq, hbin, hwire] at hframes
  exact (List.append_nil _).symm.trans hframes

/-- The live entry of a frame of the session, from a place on in the log. -/
theorem exists_live_entry {before after : List Delivery.Handled} {j n : ℕ} {data : Bytes}
    {published : List Bytes} (hframes : frames before ++ frames after = published.drop n)
    (hdata : published[j]? = some data) (hj : n + (frames before).length ≤ j) :
    ∃ between outcome rest, after = between ++ .frame data outcome :: rest ∧
      n + (frames before).length + (frames between).length = j := by
  have hget : (frames after)[j - (n + (frames before).length)]? = some data := by
    have h : (published.drop n)[j - n]? = some data := by
      rw [List.getElem?_drop, ← hdata]
      congr 1
      omega
    rw [← hframes, List.getElem?_append_right (by omega)] at h
    rw [← h]
    congr 1
    omega
  obtain ⟨between, outcome, rest, hafter, hlength⟩ := exists_of_getElem?_frames hget
  exact ⟨between, outcome, rest, hafter, by omega⟩

/-- **Only key frame first.** When everything is handled, the access units are out of order unless
the key frame came first. -/
theorem InOrder.keyFirst (hs : Inv c s) (hreplay : ReplayPasses s) (hview : Viewing s)
    (hsettled : Settled c s) (horder : InOrder s) : KeyFirst s := by
  intro before message replayed after hhandled hpassed
  obtain ⟨hbefore, hafter⟩ := hreplay.isLive hhandled
  have hmem : .text message replayed ∈ s.handled := by
    rw [hhandled]
    exact List.mem_append_right _ List.mem_cons_self
  obtain ⟨x, hx, hxpassed⟩ := hpassed
  rcases hreplay.key message replayed hmem with hnone | ⟨j, data, outcome, hj, hdata, hpass, hone⟩
  · exact absurd hxpassed (List.filter_eq_nil_iff.1 hnone x hx)
  have hframes : frames before ++ frames after = s.published.drop s.registeredAt := by
    rw [← frames_of_settled hs hsettled, hhandled, frames_append]
    rfl
  rw [InOrder, hhandled, passed_append, passed, hone, hj, passed_of_isLive hbefore,
    passed_of_isLive hafter] at horder
  obtain ⟨-, hrest, hcross⟩ := List.pairwise_append.1 horder
  have hlater := (List.pairwise_cons.1 hrest).1
  have hearlier : ∀ i ∈ passed none s.registeredAt before, i < j := fun i hi ↦
    hcross i hi j List.mem_cons_self
  -- The key frame is not a live frame behind the replay: it would be passed again.
  have hlt : j < s.registeredAt + (frames before).length := by
    by_contra hle
    obtain ⟨between, outcome', rest, rfl, hlength⟩ :=
      exists_live_entry hframes hdata (Nat.le_of_not_lt hle)
    have hrunning : running (before ++ .text message replayed :: between) = true := by
      rw [List.append_cons, running_append (isLive_append.1 hafter).1, running_concat_text,
        List.any_eq_true.2 ⟨x, hx, hxpassed⟩, Bool.true_or]
    have hpassed := hview.steady _ data outcome' rest (by simpa using hhandled) hrunning hpass
    have hmem := mem_passed_of_isPassed data hpassed none
      (s.registeredAt + (frames before).length) between rest
    rw [hlength] at hmem
    exact Nat.lt_irrefl j (hlater j hmem)
  refine ⟨?_, fun i hi ↦ ?_⟩
  · -- Nothing was passed before the replay: the viewer would have gone on to pass the key frame.
    by_contra hne
    obtain ⟨i, hi⟩ := List.exists_mem_of_ne_nil _ hne
    have hij := hearlier i hi
    have hle := (mem_passed_none hi).1
    have hget : (frames before)[j - s.registeredAt]? = some data := by
      have h : (s.published.drop s.registeredAt)[j - s.registeredAt]? = some data := by
        rw [List.getElem?_drop, ← hdata]
        congr 1
        omega
      rwa [← hframes, List.getElem?_append_left (by omega)] at h
    obtain ⟨first, outcome', rest, rfl, hlength⟩ := exists_of_getElem?_frames hget
    rw [passed_append, List.mem_append] at hi
    have hrunning : running first = true := by
      refine (running_iff (isLive_append.1 hbefore).1 (n := s.registeredAt)).2 fun hnil ↦ ?_
      rw [hnil] at hi
      rcases hi with hi | hi
      · cases hi
      · have := (mem_passed_none hi).1
        omega
    have hpassed := hview.steady first data outcome' (rest ++ .text message replayed :: after)
      (by rw [hhandled, List.append_assoc]; rfl) hrunning hpass
    have hmem := mem_passed_of_isPassed data hpassed none s.registeredAt first rest
    have := hearlier _ hmem
    omega
  · rw [hj, Option.mem_some_iff] at hi
    exact hi ▸ hlt

/-! ### Runs -/

variable {es : List Event}

theorem genuine_step (hs : Genuine s) (ht : step c s e = some t) : Genuine t := by
  intro x hx
  rcases step_viewer ht with ⟨hhandled, -⟩ | ⟨message, -, -, hhandled⟩
  · exact hs x (hhandled ▸ hx)
  · rw [hhandled, List.mem_append, List.mem_singleton] at hx
    rcases hx with hx | rfl
    · exact hs x hx
    · exact ⟨s.viewer, by rw [Delivery.deliver_message]⟩

/-- The frames of the session stay. -/
theorem published_subset (hs : Inv c s) (ht : step c s e = some t) :
    s.published ⊆ t.published := by
  cases e with
  | broadcastScreenFrame generation data =>
    cases ht
    simp only [State.broadcastScreenFrame]
    split
    · exact List.subset_append_left ..
    · exact List.Subset.refl _
  | register | status | reply =>
    simp only [step] at ht
    split at ht <;> cases ht
    exact List.Subset.refl _
  | delivery e =>
    simp only [step] at ht
    split at ht
    · rename_i hcall
      obtain ⟨u, hu, ht⟩ := Option.map_eq_some_iff.1 ht
      cases ht
      have hkeeps := keeps_delivery (Option.isNone_iff_eq_none.1 hcall) hs.broadcast hu
      show s.published ⊆ u.published
      rw [hkeeps.published]
      exact List.Subset.refl _
    · cases ht

theorem viewing_step (hinv : Inv c s) (hs : Viewing s) (ht : step c s e = some t)
    (hwhole : ∀ data ∈ s.published, WholeSets data) : Viewing t := by
  rcases step_viewer ht with ⟨hhandled, hviewer⟩ | ⟨message, hmem, hviewer, hhandled⟩
  · have hsteady := hs.steady
    rw [← hhandled] at hsteady
    rcases hviewer with hviewer | hviewer
    · refine ⟨hviewer ▸ hs.coherent, fun hrunning ↦ ?_, hsteady⟩
      rw [hviewer]
      exact hs.running (hhandled ▸ hrunning)
    · refine ⟨hviewer ▸ hs.coherent, fun hrunning ↦ ?_, hsteady⟩
      rw [hviewer]
      exact ⟨rfl, (hs.running (hhandled ▸ hrunning)).2⟩
  · exact viewing_deliver hinv hs hwhole hmem hviewer hhandled

theorem Joins.inv (h : Joins c s es t) : Inv c t :=
  exec_invariant_along (fun _ _ _ hC hs ht ↦ inv_step hC hs ht) h.delivers h.started.inv h.exec

theorem Joins.genuine (h : Joins c s es t) : Genuine t := by
  refine exec_invariant (fun _ _ _ hs ht ↦ genuine_step hs ht) (fun x hx ↦ ?_) h.exec
  rw [h.started.history.1] at hx
  cases hx

/-- The viewer of a session whose parameter sets are whole. -/
theorem Joins.viewing (h : Joins c s es t) (hviewer : s.viewer.Coherent)
    (hwhole : ∀ data ∈ t.published, WholeSets data) : Viewing t := by
  have hstart : Viewing s := by
    obtain ⟨hhandled, -⟩ := h.started.history
    refine ⟨hviewer, fun hrunning ↦ ?_, fun before data outcome after hsplit ↦ ?_⟩
    · rw [hhandled] at hrunning
      cases hrunning
    · rw [hhandled] at hsplit
      exact absurd hsplit.symm (List.append_ne_nil_of_right_ne_nil _ (List.cons_ne_nil _ _))
  have hrun : Inv c t ∧ ((∀ data ∈ t.published, WholeSets data) → Viewing t) := by
    refine exec_invariant_along (P := fun s ↦ Inv c s ∧
      ((∀ data ∈ s.published, WholeSets data) → Viewing s)) (fun s e t hC hs ht ↦ ?_) h.delivers
      ⟨h.started.inv, fun _ ↦ hstart⟩ h.exec
    refine ⟨inv_step hC hs.1 ht, fun hwhole ↦ ?_⟩
    have hwhole' : ∀ data ∈ s.published, WholeSets data := fun data hdata ↦
      hwhole data (published_subset hs.1 ht hdata)
    exact viewing_step hs.1 (hs.2 hwhole') ht hwhole'
  exact hrun.2 hwhole

/-- **The late join.** Live frames are handled and passed in the order of their broadcast, none
twice. The replay passes its key frame at most. The access units that are passed are all in order if
the key frame comes first, and, once everything is handled, only then. -/
theorem late_join (h : Joins c s es t) :
    frames t.handled <+: t.published.drop t.registeredAt ∧
      (passed none t.registeredAt t.handled).Pairwise (· < ·) ∧ ReplayPasses t ∧
      (KeyFirst t → InOrder t) ∧
      (Settled c t → s.viewer.Coherent → (∀ data ∈ t.published, WholeSets data) →
        InOrder t → KeyFirst t) := by
  have hreplay := replayPasses h.inv h.genuine
  refine ⟨live_frames h.inv, pairwise_passed_none _ _, hreplay, fun hkey ↦ hkey.inOrder hreplay,
    fun hsettled hviewer hwhole horder ↦ ?_⟩
  exact horder.keyFirst h.inv hreplay (h.viewing hviewer hwhole) hsettled

/-- A session has started, and its first viewer has not joined. -/
def streaming : State where
  hub := Hub.newHub.startGeneration.cacheSession ⟨720, 1600⟩
  textHand := none
  binHand := none
  wire := []
  viewer := ⟨false, none, false, ⟨[], []⟩, none⟩
  handled := []
  published := []
  request := .unsent
  registeredAt := 0
  keyAt := none
  replayedKey := none

theorem streaming_started : Started 0 streaming where
  session := ⟨⟨720, 1600⟩, rfl, by decide, by decide⟩
  cache := ⟨rfl, rfl⟩
  broadcast := rfl
  client := ⟨rfl, rfl⟩
  pumps := ⟨rfl, rfl, rfl⟩
  request := rfl
  history := ⟨rfl, rfl, rfl⟩

/-- The pumps write the reply and then some frames, and the viewer handles them. -/
def pump (count : ℕ) : List Event :=
  [.delivery .textTake, .delivery .textWrite, .delivery .deliver] ++
    (List.replicate count
      [.delivery .binTake, .delivery .binWrite, .delivery .deliver]).flatten

/-- The client joins between the key frame and a delta frame. -/
def joinsBehindKey : List Event :=
  [.broadcastScreenFrame 1 [1, 0, 0, 1, 0x67, 0x42, 0xC0, 0x1E, 0, 0, 1, 0x68, 0xCE],
    .broadcastScreenFrame 1 [2, 0, 0, 1, 0x65, 0x88], .register,
    .broadcastScreenFrame 1 [0, 0, 0, 1, 0x41, 0x9A], .status, .reply] ++ pump 1

theorem late_join_behindKey :
    ∃ t, Joins 0 streaming joinsBehindKey t ∧ InOrder t ∧
      passed t.replayedKey t.registeredAt t.handled = [1, 2] := by
  have hrun : exec (step 0) streaming joinsBehindKey = some _ := rfl
  have h : Joins 0 streaming joinsBehindKey _ := ⟨streaming_started, hrun, by decide⟩
  refine ⟨_, h, (late_join h).2.2.2.1 fun before message replayed after hsplit _ ↦ ?_, by decide⟩
  rcases before with _ | ⟨x, _ | ⟨y, before⟩⟩
  · exact ⟨rfl, by decide⟩
  · cases hsplit
  · cases before <;> cases hsplit

/-- The client joins between the config frame and a delta frame, and a key frame follows. -/
def joinsBeforeKey : List Event :=
  [.broadcastScreenFrame 1 [1, 0, 0, 1, 0x67, 0x42, 0xC0, 0x1E, 0, 0, 1, 0x68, 0xCE], .register,
    .broadcastScreenFrame 1 [0, 0, 0, 1, 0x41, 0x9A],
    .broadcastScreenFrame 1 [2, 0, 0, 1, 0x65, 0x88], .status, .reply] ++ pump 2

/-- **A key frame that is replayed and live** is passed twice, with an older frame in between. -/
theorem replay_out_of_order :
    ∃ t, Joins 0 streaming joinsBeforeKey t ∧
      passed t.replayedKey t.registeredAt t.handled = [2, 1, 2] ∧ ¬InOrder t := by
  have hrun : exec (step 0) streaming joinsBeforeKey = some _ := rfl
  exact ⟨_, ⟨streaming_started, hrun, by decide⟩, by decide, by decide⟩

end LateJoin

end AllRelay
