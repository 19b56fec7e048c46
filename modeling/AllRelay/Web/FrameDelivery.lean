import AllRelay.Library.TwoPaths
import AllRelay.Hub.Lifecycle
import AllRelay.Browser.ScreenViewer

/-!
# From the hub to a viewer

A screen session reaches a viewer on two paths. Its header is an event: it goes through the
broadcast channel of the hub, `Hub.Run`, the client's text queue and its text pump. Its frames go
straight into the client's binary queue, and from there through its binary pump. The viewer handles
what the two pumps wrote in the order of their writes.

Nothing holds the frames back until the header is written. The header of a session may come after
its config frames, and then throws away what they configured (`session_event_overtaken`).
`session_delivery` says when it does not.
-/

open LabelledSystem AllRelay.Browser

namespace AllRelay

namespace Hub

/-- A client is offered a broadcast message; a full queue disconnects it. -/
def offerMessage (h : Hub) (message : WSMessage) (c : ClientId) : Client × Bool :=
  match (h.client c).enqueueText message with
  | (client, true) => (client, true)
  | (client, false) => ({ client with closed := true }, false)

/-- `Run` takes a message from the broadcast channel. -/
def runBroadcast (h : Hub) : Option Hub :=
  match h.broadcast with
  | [] => none
  | message :: rest =>
    some
      { h with
        broadcast := rest
        client := fun c ↦ if h.clients c then (h.offerMessage message c).1 else h.client c
        clients := fun c ↦ h.clients c && (h.offerMessage message c).2 }

end Hub

namespace Delivery

/-- A WebSocket message on the wire: text, or a frame. -/
abbrev Wire := WSMessage ⊕ Bytes

/-- A message that the viewer handled. -/
inductive Handled where
  /-- A text message, with the access units that it replayed. -/
  | text (message : WSMessage) (replayed : List (Bytes × Outcome))
  /-- An access unit. -/
  | frame (data : Bytes) (outcome : Outcome)
deriving DecidableEq, Repr

/-- The message. -/
def Handled.message : Handled → Wire
  | .text message _ => .inl message
  | .frame data _ => .inr data

/-- The viewer handles a message. -/
def deliver (v : Viewer) : Wire → Viewer × Handled
  | .inl message => ((v.handleMessage message).1, .text message (v.handleMessage message).2)
  | .inr data => ((v.handleBinaryFrame data).1, .frame data (v.handleBinaryFrame data).2)

/-- The hub, the connection of one client and its viewer. -/
structure State where
  /-- The hub. -/
  hub : Hub
  /-- The message that the text pump has taken. -/
  textHand : Option WSMessage
  /-- The frame that the binary pump has taken. -/
  binHand : Option Bytes
  /-- The messages that were written and not handled. -/
  wire : List Wire
  /-- The viewer. -/
  viewer : Viewer
  /-- History: what the viewer handled. -/
  handled : List Handled
  /-- History: the frames that were broadcast since the last `SetScreenSession`. -/
  published : List Bytes

/-- What the scheduler chooses. -/
inductive Event where
  /-- `SetScreenSession`; `ok` is the outcome of its display write. -/
  | setScreenSession (generation : ℕ) (session : ScreenSession) (ok : Bool)
  /-- `BroadcastScreenFrame`. -/
  | broadcastScreenFrame (generation : ℕ) (data : Bytes)
  /-- `Hub.Run` broadcasts a message. -/
  | run
  /-- The text pump takes a message. -/
  | textTake
  /-- The text pump writes it. -/
  | textWrite
  /-- The binary pump takes a frame. -/
  | binTake
  /-- The binary pump writes it. -/
  | binWrite
  /-- The viewer handles a message. -/
  | deliver
deriving DecidableEq, Repr

variable (c : ClientId)

namespace State

/-- Take the client's queues to a new state. -/
def setClient (s : State) (client : Client) : State :=
  { s with hub := { s.hub with client := Function.update s.hub.client c client } }

/-- The text pump takes a message. -/
def textTake (s : State) : Option State :=
  match s.textHand, (s.hub.client c).send with
  | none, message :: rest =>
    some { s.setClient c { s.hub.client c with send := rest } with textHand := some message }
  | _, _ => none

/-- The text pump writes its message. -/
def textWrite (s : State) : Option State :=
  s.textHand.map fun message ↦
    { s with textHand := none, wire := s.wire ++ [.inl message] }

/-- The binary pump takes a frame. -/
def binTake (s : State) : Option State :=
  match s.binHand, (s.hub.client c).sendBin with
  | none, data :: rest =>
    some { s.setClient c { s.hub.client c with sendBin := rest } with binHand := some data }
  | _, _ => none

/-- The binary pump writes its frame. -/
def binWrite (s : State) : Option State :=
  s.binHand.map fun data ↦ { s with binHand := none, wire := s.wire ++ [.inr data] }

/-- The viewer handles the next message. -/
def deliver (s : State) : Option State :=
  match s.wire with
  | [] => none
  | message :: rest =>
    some
      { s with
        wire := rest
        viewer := (Delivery.deliver s.viewer message).1
        handled := s.handled ++ [(Delivery.deliver s.viewer message).2] }

end State

/-- One step. -/
def step (s : State) : Event → Option State
  | .setScreenSession generation session ok =>
    -- The send on the broadcast channel blocks while the channel is full.
    if s.hub.broadcast.length < textQueueCapacity then
      some
        { s with
          hub := (s.hub.setScreenSession generation session ok).1
          published := if s.hub.accepts generation then [] else s.published }
    else none
  | .broadcastScreenFrame generation data =>
    some
      { s with
        hub := (s.hub.broadcastScreenFrame generation data).1
        published := if s.hub.accepts generation then s.published ++ [data] else s.published }
  | .run => s.hub.runBroadcast.map fun hub ↦ { s with hub }
  | .textTake => s.textTake c
  | .textWrite => s.textWrite
  | .binTake => s.binTake c
  | .binWrite => s.binWrite
  | .deliver => s.deliver

/-- The client is registered, and a message to it is not dropped. -/
def Delivers (s : State) : Event → Prop
  | .setScreenSession generation _ _ => s.hub.accepts generation = true
  | .broadcastScreenFrame generation _ =>
    s.hub.accepts generation = true ∧ s.hub.clients c = true ∧ (s.hub.client c).closed = false ∧
      (s.hub.client c).sendBin.length < binQueueCapacity
  | .run => s.hub.clients c = true ∧ (s.hub.client c).closed = false ∧
      (s.hub.client c).send.length < textQueueCapacity
  | _ => True

/-- What is on its way on the text path, next to be written first. -/
def State.textPath (s : State) : List WSMessage :=
  s.textHand.toList ++ (s.hub.client c).send ++ s.hub.broadcast

/-- What is on its way on the binary path. -/
def State.binPath (s : State) : List Bytes :=
  s.binHand.toList ++ (s.hub.client c).sendBin

/-- Everything the hub sent has been handled. -/
def Drained (s : State) : Prop :=
  s.textPath c = [] ∧ s.binPath c = [] ∧ s.wire = []

/-- The calls of the hub in a schedule that send the session of a feed. -/
def Event.call : Event → Option (ScreenSession ⊕ Bytes)
  | .setScreenSession _ session _ => some (.inl session)
  | .broadcastScreenFrame _ data => some (.inr data)
  | _ => none

/-- What is claimed: the viewer is configured from the config frames of the session, its event is
handled before its frames, and none of them was dropped. -/
structure Shown (f : ScreenFeed) (s : State) : Prop where
  /-- The decoder is configured from the config frames. -/
  configured : ∃ config keyRequired, f.config = some config ∧
    s.viewer.ConfiguredWith config keyRequired
  /-- The last text message is the event of the session. Some frames of earlier sessions may come
  after it, and then the frames of the session. -/
  order : ∃ (before : List Handled) (old new : List (Bytes × Outcome)),
    s.handled = before ++ .text (.screenSession f.session) [] ::
      (old ++ new).map (fun x ↦ .frame x.1 x.2) ∧
    new.map Prod.fst = f.frames ∧ ∀ x ∈ new, x.2 ≠ .discarded

/-- The condition on a step: a frame of the session is written after its event. -/
def EventFirst (s : State) : Event → Prop
  | .binWrite => (s.hub.client c).sendBin.length < s.published.length → s.textPath c = []
  | _ => True

instance (s : State) : ∀ e, Decidable (Delivers c s e)
  | .setScreenSession _ _ _ => inferInstanceAs (Decidable (_ = _))
  | .broadcastScreenFrame _ _ => inferInstanceAs (Decidable (_ ∧ _ ∧ _ ∧ _))
  | .run => inferInstanceAs (Decidable (_ ∧ _ ∧ _))
  | .textTake | .textWrite | .binTake | .binWrite | .deliver => inferInstanceAs (Decidable True)

instance (s : State) : ∀ e, Decidable (EventFirst c s e)
  | .binWrite => inferInstanceAs (Decidable (_ → _))
  | .setScreenSession _ _ _ | .broadcastScreenFrame _ _ | .run | .textTake | .textWrite | .binTake
  | .deliver => inferInstanceAs (Decidable True)

/-- A run that sends a session to an active viewer: the calls of the hub are those of the feed, no
message to the client is dropped, and everything is handled in the end. -/
structure Sends (f : ScreenFeed) (s : State) (es : List Event) (t : State) : Prop where
  active : s.viewer.screenActive = true
  handled : s.handled = []
  published : s.published = []
  exec : exec (step c) s es = some t
  calls : es.filterMap Event.call = .inl f.session :: f.frames.map .inr
  delivers : Along (step c) (Delivers c) s es
  drained : Drained c t

/-! ### The two paths -/

/-- What is on its way to the viewer, and what was written to it. -/
def paths (s : State) : TwoPaths.Paths WSMessage Bytes :=
  ⟨s.textPath c, s.binPath c, s.handled.map Handled.message ++ s.wire⟩

/-- The move of a step on the two paths. -/
def Event.move : Event → Option (TwoPaths.Move WSMessage Bytes)
  | .setScreenSession _ session _ => some (.pushLeft (.screenSession session))
  | .broadcastScreenFrame _ data => some (.pushRight data)
  | .textWrite => some .popLeft
  | .binWrite => some .popRight
  | _ => none

variable {c} {s t : State} {e : Event}

/-- An automatic display write changes nothing that concerns the viewers. -/
theorem turnDisplayOff_frame (h : Hub) (r : RouteId) (ok : Bool) :
    (h.turnDisplayOff r ok).1.client = h.client ∧
      (h.turnDisplayOff r ok).1.broadcast = h.broadcast := by
  rw [Hub.turnDisplayOff, Hub.sendDisplayOff]
  split_ifs <;> exact ⟨rfl, rfl⟩

theorem setScreenSession_frame {h : Hub} {generation : ℕ} (session : ScreenSession) (ok : Bool)
    (hgen : h.accepts generation = true) :
    (h.setScreenSession generation session ok).1.client = h.client ∧
      (h.setScreenSession generation session ok).1.broadcast =
        h.broadcast ++ [.screenSession session] := by
  rw [Hub.setScreenSession, if_pos hgen]
  dsimp only
  split
  · split_ifs
    · exact turnDisplayOff_frame ..
    · exact ⟨rfl, rfl⟩
  · exact ⟨rfl, rfl⟩

/-- A frame that is not dropped goes into the binary queue. -/
theorem broadcastScreenFrame_frame {h : Hub} {generation : ℕ} (data : Bytes)
    (hgen : h.accepts generation = true) (hclient : h.clients c = true)
    (hopen : (h.client c).closed = false) (hroom : (h.client c).sendBin.length < binQueueCapacity) :
    (h.broadcastScreenFrame generation data).1.client c =
        { h.client c with sendBin := (h.client c).sendBin ++ [data] } ∧
      (h.broadcastScreenFrame generation data).1.broadcast = h.broadcast := by
  have hcache : (h.cacheFrame data).clients = h.clients ∧ (h.cacheFrame data).client = h.client ∧
      (h.cacheFrame data).broadcast = h.broadcast := by
    rw [Hub.cacheFrame.eq_def]
    split <;> exact ⟨rfl, rfl, rfl⟩
  rw [Hub.broadcastScreenFrame, if_pos hgen, Hub.publishFrame, Hub.offerFrame]
  simp only [hcache.1, hcache.2.1, hcache.2.2, hclient, if_true, Client.enqueueBin, hopen,
    Bool.false_eq_true, if_false, if_pos hroom, and_self]

/-- A message that is not dropped moves from the broadcast channel to the text queue. -/
theorem runBroadcast_textPath {h h' : Hub} (hrun : h.runBroadcast = some h')
    (hclient : h.clients c = true) (hopen : (h.client c).closed = false)
    (hroom : (h.client c).send.length < textQueueCapacity) :
    (h'.client c).send ++ h'.broadcast = (h.client c).send ++ h.broadcast ∧
      (h'.client c).sendBin = (h.client c).sendBin := by
  rw [Hub.runBroadcast] at hrun
  split at hrun
  · cases hrun
  · rename_i message rest hbroadcast
    cases hrun
    simp only [hclient, if_true, Hub.offerMessage, Client.enqueueText, hopen, Bool.false_eq_true,
      if_false, if_pos hroom, hbroadcast, List.append_assoc, List.singleton_append, and_self]

/-- The messages that a viewer has handled are those that it was given. -/
theorem deliver_message (v : Viewer) (message : Wire) :
    (deliver v message).2.message = message := by
  cases message <;> rfl

/-- The other steps leave the two paths alone. -/
theorem paths_of_move_eq_none (hC : Delivers c s e) (ht : step c s e = some t)
    (he : e.move = none) : paths c t = paths c s ∧ t.published = s.published := by
  cases e with
  | setScreenSession | broadcastScreenFrame | textWrite | binWrite => cases he
  | run =>
    obtain ⟨hub, hhub, ht⟩ := Option.map_eq_some_iff.1 ht
    cases ht
    obtain ⟨htext, hbin⟩ := runBroadcast_textPath hhub hC.1 hC.2.1 hC.2.2
    simp only [paths, State.textPath, State.binPath, List.append_assoc, htext, hbin, and_self]
  | textTake =>
    simp only [step, State.textTake] at ht
    split at ht <;> cases ht
    rename_i hhand hsend
    simp [paths, State.textPath, State.binPath, State.setClient, hhand, hsend]
  | binTake =>
    simp only [step, State.binTake] at ht
    split at ht <;> cases ht
    rename_i hhand hsend
    simp [paths, State.textPath, State.binPath, State.setClient, hhand, hsend]
  | deliver =>
    simp only [step, State.deliver] at ht
    split at ht <;> cases ht
    rename_i message rest hwire
    simp [paths, State.textPath, State.binPath, hwire, deliver_message]

/-- A step with a move makes it on the two paths. -/
theorem paths_step {m : TwoPaths.Move WSMessage Bytes} (hC : Delivers c s e)
    (ht : step c s e = some t) (he : e.move = some m) :
    TwoPaths.step (paths c s) m = some (paths c t) := by
  cases e with
  | run | textTake | binTake | deliver => cases he
  | setScreenSession generation session ok =>
    cases he
    simp only [step] at ht
    split at ht <;> cases ht
    obtain ⟨hclient, hbroadcast⟩ := setScreenSession_frame session ok hC
    simp only [TwoPaths.step, paths, State.textPath, State.binPath, hclient, hbroadcast,
      List.append_assoc]
  | broadcastScreenFrame generation data =>
    cases he
    cases ht
    obtain ⟨hclient, hbroadcast⟩ :=
      broadcastScreenFrame_frame data hC.1 hC.2.1 hC.2.2.1 hC.2.2.2
    simp only [TwoPaths.step, paths, State.textPath, State.binPath, hclient, hbroadcast,
      List.append_assoc]
  | textWrite =>
    cases he
    obtain ⟨message, hhand, ht⟩ := Option.map_eq_some_iff.1 ht
    cases ht
    simp [TwoPaths.step, paths, State.textPath, State.binPath, hhand]
  | binWrite =>
    cases he
    obtain ⟨data, hhand, ht⟩ := Option.map_eq_some_iff.1 ht
    cases ht
    simp [TwoPaths.step, paths, State.textPath, State.binPath, hhand]

/-! ### What was sent -/

/-- The text messages that a schedule sends are the headers of its calls. -/
theorem filterMap_sentLeft (es : List Event) :
    (es.filterMap Event.move).filterMap TwoPaths.Move.sentLeft =
      (TwoPaths.lefts (es.filterMap Event.call)).map .screenSession := by
  induction es with
  | nil => rfl
  | cons e es ih =>
    cases e with
    | setScreenSession generation session ok => exact congrArg (.screenSession session :: ·) ih
    | broadcastScreenFrame | run | textTake | textWrite | binTake | binWrite | deliver => exact ih

/-- The frames that a schedule sends are those of its calls. -/
theorem filterMap_sentRight (es : List Event) :
    (es.filterMap Event.move).filterMap TwoPaths.Move.sentRight =
      TwoPaths.rights (es.filterMap Event.call) := by
  induction es with
  | nil => rfl
  | cons e es ih =>
    cases e with
    | broadcastScreenFrame generation data => exact congrArg (data :: ·) ih
    | setScreenSession | run | textTake | textWrite | binTake | binWrite | deliver => exact ih

/-- A run on the two paths. -/
theorem paths_exec {es : List Event} (hC : Along (step c) (Delivers c) s es)
    (ht : exec (step c) s es = some t) :
    exec TwoPaths.step (paths c s) (es.filterMap Event.move) = some (paths c t) :=
  exec_refines (g := Event.move) (fun _ _ _ hC ht he ↦ (paths_of_move_eq_none hC ht he).1)
    (fun _ _ _ _ hC ht he ↦ paths_step hC ht he) hC ht

/-- What a call does to the frames that were broadcast. -/
theorem published_step (hC : Delivers c s e) (ht : step c s e = some t) :
    t.published = e.call.elim s.published (TwoPaths.push s.published) := by
  cases e with
  | setScreenSession generation session ok =>
    simp only [step] at ht
    split at ht <;> cases ht
    exact if_pos hC
  | broadcastScreenFrame generation data =>
    cases ht
    exact if_pos hC.1
  | run | textTake | binTake | deliver => exact (paths_of_move_eq_none hC ht rfl).2
  | textWrite | binWrite =>
    obtain ⟨_, -, ht⟩ := Option.map_eq_some_iff.1 ht
    cases ht
    rfl

/-- The frames that were broadcast since the last header. -/
theorem published_exec {es : List Event} (hC : Along (step c) (Delivers c) s es)
    (ht : exec (step c) s es = some t) :
    t.published = (es.filterMap Event.call).foldl TwoPaths.push s.published := by
  induction es generalizing s with
  | nil =>
    cases ht
    rfl
  | cons e es ih =>
    obtain ⟨u, hu, ht⟩ := exec_cons_eq_some_iff.1 ht
    rw [ih (hC.2 u hu) ht, published_step hC.1 hu]
    cases hcall : e.call with
    | none => rw [List.filterMap_cons_none hcall]; rfl
    | some call => rw [List.filterMap_cons_some hcall]; rfl

/-- The header of the session is the first call: nothing was broadcast before it. -/
theorem along_published {es : List Event} {session : ScreenSession} {l : List Bytes}
    (hs : s.published = []) (hC : Along (step c) (Delivers c) s es)
    (hcalls : es.filterMap Event.call = .inl session :: l.map .inr) :
    Along (step c) (fun s e ↦ ∀ session, e.call = some (.inl session) → s.published = []) s es := by
  induction es generalizing s with
  | nil => trivial
  | cons e es ih =>
    refine ⟨fun _ _ ↦ hs, fun t ht ↦ ?_⟩
    have hpublished := published_step hC.1 ht
    cases hcall : e.call with
    | none =>
      rw [List.filterMap_cons_none hcall] at hcalls
      rw [hcall] at hpublished
      exact ih (hpublished.trans hs) (hC.2 t ht) hcalls
    | some call =>
      -- Behind the header there are frames only.
      rw [List.filterMap_cons_some hcall] at hcalls
      have hrest : es.filterMap Event.call = l.map .inr := (List.cons.inj hcalls).2
      refine along_of_forall_mem (C := fun e ↦ ∀ session, e.call ≠ some (.inl session)) ?_ |>.mono
        fun s e h session hsession ↦ absurd hsession (h session)
      intro e he session hsession
      have hmem : Sum.inl session ∈ l.map (.inr : Bytes → ScreenSession ⊕ Bytes) :=
        hrest ▸ List.mem_filterMap.2 ⟨e, he, hsession⟩
      obtain ⟨_, -, h⟩ := List.mem_map.1 hmem
      cases h

/-! ### In time -/

variable (c) in
/-- The frames of the session are behind its header. -/
def InTime (s : State) : Prop :=
  s.published.length ≤ TwoPaths.late (paths c s)

/-- **One step** keeps the frames of the session behind its header exactly when it writes the header
before the frames. -/
theorem inTime_step (hC : Delivers c s e)
    (hfirst : ∀ session, e.call = some (.inl session) → s.published = [])
    (ht : step c s e = some t) : InTime c t ↔ InTime c s ∧ EventFirst c s e := by
  have hpublished := published_step hC ht
  cases e with
  | setScreenSession generation session ok =>
    have hs := hfirst session rfl
    simp only [InTime, hs, show t.published = [] from hpublished, List.length_nil, Nat.zero_le,
      EventFirst, and_self]
  | broadcastScreenFrame generation data =>
    have hlate := TwoPaths.late_pushRight data (paths_step hC ht rfl)
    have hlength : t.published.length = s.published.length + 1 := by
      rw [show t.published = s.published ++ [data] from hpublished, List.length_append,
        List.length_singleton]
    simp only [InTime, hlength, hlate, Nat.add_le_add_iff_right, EventFirst, and_true]
  | run | textTake | binTake | deliver =>
    simp only [InTime, (paths_of_move_eq_none hC ht rfl).1, show t.published = s.published from
      hpublished, EventFirst, and_true]
  | textWrite =>
    have hlate := TwoPaths.late_popLeft (paths_step hC ht rfl)
    simp only [InTime, hlate, show t.published = s.published from hpublished, EventFirst, and_true]
  | binWrite =>
    have hlate := TwoPaths.le_late_popRight s.published.length (paths_step hC ht rfl)
    have hright : (paths c t).right = (s.hub.client c).sendBin := by
      obtain ⟨data, hhand, ht⟩ := Option.map_eq_some_iff.1 ht
      cases ht
      rfl
    rw [hright] at hlate
    rw [InTime, show t.published = s.published from hpublished]
    exact hlate

/-! ### What the viewer handles -/

/-- The viewer handles some messages. -/
def deliverAll (v : Viewer) : List Wire → Viewer × List Handled
  | [] => (v, [])
  | message :: rest =>
    let (v, handled) := deliver v message
    let (v, handleds) := deliverAll v rest
    (v, handled :: handleds)

theorem deliverAll_append (v : Viewer) (l l' : List Wire) :
    deliverAll v (l ++ l') =
      ((deliverAll (deliverAll v l).1 l').1,
        (deliverAll v l).2 ++ (deliverAll (deliverAll v l).1 l').2) := by
  induction l generalizing v with
  | nil => rfl
  | cons message rest ih => simp only [List.cons_append, deliverAll, ih]

/-- Frames are handled one after the other. -/
theorem deliverAll_frames (v : Viewer) (l : List Bytes) :
    deliverAll v (l.map .inr) =
      ((v.handleFrames l).1, (v.handleFrames l).2.map fun x ↦ .frame x.1 x.2) := by
  induction l generalizing v with
  | nil => rfl
  | cons data rest ih => simp only [List.map_cons, deliverAll, deliver, ih, Viewer.handleFrames]

theorem deliverAll_screenActive (v : Viewer) (l : List Wire) :
    (deliverAll v l).1.screenActive = v.screenActive := by
  induction l generalizing v with
  | nil => rfl
  | cons message rest ih =>
    refine (ih _).trans ?_
    cases message with
    | inl message => exact v.handleMessage_screenActive message
    | inr data => exact v.handleBinaryFrame_screenActive data

/-- The viewer and its history are what it makes of the messages that it was given. -/
theorem deliverAll_exec {v : Viewer} {es : List Event}
    (hs : deliverAll v (s.handled.map Handled.message) = (s.viewer, s.handled))
    (ht : exec (step c) s es = some t) :
    deliverAll v (t.handled.map Handled.message) = (t.viewer, t.handled) := by
  refine exec_invariant (P := fun s ↦ deliverAll v (s.handled.map Handled.message) =
    (s.viewer, s.handled)) (fun s e t hs ht ↦ ?_) hs ht
  cases e with
  | setScreenSession generation session ok =>
    simp only [step] at ht
    split at ht <;> cases ht
    exact hs
  | broadcastScreenFrame generation data =>
    cases ht
    exact hs
  | run | textWrite | binWrite =>
    obtain ⟨_, -, ht⟩ := Option.map_eq_some_iff.1 ht
    cases ht
    exact hs
  | textTake =>
    simp only [step, State.textTake] at ht
    split at ht <;> cases ht
    exact hs
  | binTake =>
    simp only [step, State.binTake] at ht
    split at ht <;> cases ht
    exact hs
  | deliver =>
    simp only [step, State.deliver] at ht
    split at ht <;> cases ht
    simp only [List.map_append, List.map_cons, List.map_nil, deliver_message, deliverAll_append, hs,
      deliverAll]

/-! ### The session at the viewer -/

variable {f : ScreenFeed} {es : List Event}

/-- What the viewer was given ends with the header and with the frames of the session. -/
theorem Sends.messages (h : Sends c f s es t) :
    (∃ texts, TwoPaths.lefts (t.handled.map Handled.message) =
      texts ++ [.screenSession f.session]) ∧
      ∃ old, TwoPaths.rights (t.handled.map Handled.message) = old ++ f.frames := by
  obtain ⟨htext, hbin, hwire⟩ := h.drained
  have hexec := paths_exec h.delivers h.exec
  have hlefts := TwoPaths.lefts_exec hexec
  have hrights := TwoPaths.rights_exec hexec
  rw [filterMap_sentLeft, h.calls] at hlefts
  rw [filterMap_sentRight, h.calls] at hrights
  have hleft : TwoPaths.lefts (.inl f.session :: f.frames.map .inr) = [f.session] :=
    congrArg (f.session :: ·) (TwoPaths.lefts_map_inr f.frames)
  have hright : TwoPaths.rights (.inl f.session :: f.frames.map .inr) = f.frames :=
    TwoPaths.rights_map_inr f.frames
  simp only [paths, htext, hbin, hwire, List.append_nil, hleft, List.map_cons, List.map_nil]
    at hlefts
  simp only [paths, htext, hbin, hwire, List.append_nil, hright] at hrights
  exact ⟨⟨_, hlefts⟩, ⟨_, hrights⟩⟩

/-- The frames that were broadcast are those of the session. -/
theorem Sends.published_eq (h : Sends c f s es t) : t.published = f.frames := by
  rw [published_exec h.delivers h.exec, h.published, h.calls]
  exact TwoPaths.sinceLeft_append_cons [] f.session f.frames

/-- The frames of the session arrive behind its header. -/
def Ordered (f : ScreenFeed) (messages : List Wire) : Prop :=
  ∃ before old, messages = before ++ .inl (.screenSession f.session) :: (old ++ f.frames).map .inr

theorem Sends.inTime_iff (h : Sends c f s es t) :
    InTime c t ↔ Ordered f (t.handled.map Handled.message) := by
  obtain ⟨⟨texts, hlefts⟩, ⟨old, hrights⟩⟩ := h.messages
  obtain ⟨htext, hbin, hwire⟩ := h.drained
  rw [Ordered, ← TwoPaths.length_le_sinceLeft_iff hlefts hrights, InTime, h.published_eq,
    TwoPaths.late]
  simp only [paths, htext, hbin, hwire, if_true, List.append_nil, List.length_nil, Nat.add_zero]

/-- The header of a session, and frames behind it. -/
theorem deliverAll_session (v : Viewer) (session : ScreenSession) (l : List Bytes) :
    deliverAll v (.inl (.screenSession session) :: l.map .inr) =
      (((v.handleScreenSession session).handleFrames l).1,
        .text (.screenSession session) [] ::
          ((v.handleScreenSession session).handleFrames l).2.map fun x ↦ .frame x.1 x.2) := by
  simp only [deliverAll, deliver, Viewer.handleMessage, deliverAll_frames]

/-- **In order is what it takes**: a viewer that is given the frames of the session behind its
header is configured by them and drops none. -/
theorem Sends.shown_iff (hf : f.WellFormed) (h : Sends c f s es t) :
    Shown f t ↔ Ordered f (t.handled.map Handled.message) := by
  constructor
  · intro hshown
    obtain ⟨before, old, new, hhandled, hnew, -⟩ := hshown.order
    refine ⟨before.map Handled.message, old.map Prod.fst, ?_⟩
    have hmessage : (Handled.message ∘ fun x : Bytes × Outcome ↦ .frame x.1 x.2) =
        .inr ∘ Prod.fst := rfl
    rw [hhandled, ← hnew, ← List.map_append, List.map_append, List.map_cons, List.map_map, hmessage,
      List.map_map]
    rfl
  · rintro ⟨before, old, hmessages⟩
    have hdeliver : deliverAll s.viewer (t.handled.map Handled.message) = (t.viewer, t.handled) :=
      deliverAll_exec (by rw [h.handled]; rfl) h.exec
    rw [hmessages, deliverAll_append, deliverAll_session, Viewer.handleFrames_append] at hdeliver
    -- The viewer when it comes to the first frame of the session.
    have hactive : ((((deliverAll s.viewer before).1.handleScreenSession f.session).handleFrames
        old).1).screenActive = true := by
      rw [Viewer.handleFrames_screenActive, Viewer.handleScreenSession_screenActive,
        deliverAll_screenActive, h.active]
    obtain ⟨⟨config, hconfig, hconfigured⟩, houtcomes⟩ := f.handleFrames_frames hf hactive
    obtain ⟨hviewer, hhandled⟩ := Prod.mk.inj hdeliver
    refine ⟨⟨config, false, hconfig, hviewer ▸ hconfigured⟩, _, _, _, hhandled.symm, ?_, houtcomes⟩
    exact Viewer.handleFrames_fst _ _

/-- **A session reaches the viewer** as it was sent exactly when every frame of it is written after
its header. -/
theorem session_delivery (hf : f.WellFormed) (h : Sends c f s es t) :
    Shown f t ↔ Along (step c) (EventFirst c) s es := by
  have hfirst := along_published h.published h.delivers h.calls
  have hintime : InTime c t ↔ InTime c s ∧ Along (step c) (EventFirst c) s es :=
    exec_iff_along (fun _ _ _ hD ht ↦ inTime_step hD.1 hD.2 ht) (h.delivers.and hfirst) h.exec
  have hstart : InTime c s := by
    rw [InTime, h.published]
    exact Nat.zero_le _
  rw [h.shown_iff hf, ← h.inTime_iff, hintime]
  exact and_iff_right hstart

/-- A session with one config frame, its key frame and a delta frame. -/
def sampleFeed : ScreenFeed where
  session := ⟨720, 1600⟩
  configs := [[1, 0, 0, 1, 0x67, 0x42, 0xC0, 0x1E, 0, 0, 1, 0x68, 0xCE]]
  keyFrame := [2, 0, 0, 1, 0x65, 0x88]
  deltas := [[0, 0, 0, 1, 0x41, 0x9A]]

theorem sampleFeed_wellFormed : sampleFeed.WellFormed where
  session := by decide
  configs := by
    intro data hdata
    obtain rfl := List.mem_singleton.1 hdata
    exact ⟨by decide, by decide⟩
  config := by decide
  keyFrame := ⟨⟨by decide, by decide, by decide⟩, rfl⟩
  deltas := by
    intro data hdata
    obtain rfl := List.mem_singleton.1 hdata
    exact ⟨by decide, by decide, by decide⟩

/-- The phone streams its first generation, and one viewer watches. -/
def joined : State where
  hub := { Hub.newHub.startGeneration with clients := fun c ↦ c == 0 }
  textHand := none
  binHand := none
  wire := []
  viewer := ⟨true, none, false, ⟨[], []⟩, none⟩
  handled := []
  published := []

/-- The header is written first. -/
def inOrder : List Event :=
  [.setScreenSession 1 sampleFeed.session true, .run, .textTake, .textWrite] ++
    sampleFeed.frames.flatMap (fun data ↦ [.broadcastScreenFrame 1 data, .binTake, .binWrite]) ++
    List.replicate 4 .deliver

theorem session_delivery_inOrder :
    ∃ t, Sends 0 sampleFeed joined inOrder t ∧ Shown sampleFeed t := by
  have hrun : exec (step 0) joined inOrder = some _ := rfl
  have h : Sends 0 sampleFeed joined inOrder _ :=
    ⟨rfl, rfl, rfl, hrun, rfl, by decide, rfl, rfl, rfl⟩
  exact ⟨_, h, (session_delivery sampleFeed_wellFormed h).2 (by decide)⟩

/-- The config frame is written while the header is in the broadcast channel. -/
def overtaken : List Event :=
  [.setScreenSession 1 sampleFeed.session true] ++
    sampleFeed.configs.flatMap (fun data ↦ [.broadcastScreenFrame 1 data, .binTake, .binWrite]) ++
    [.run, .textTake, .textWrite] ++
    (sampleFeed.keyFrame :: sampleFeed.deltas).flatMap
      (fun data ↦ [.broadcastScreenFrame 1 data, .binTake, .binWrite]) ++
    List.replicate 4 .deliver

/-- **A header that comes late** resets the decoder that the config frame of its own session had
configured, and the key frame is dropped. -/
theorem session_event_overtaken :
    sampleFeed.WellFormed ∧ ∃ t, Sends 0 sampleFeed joined overtaken t ∧ ¬Shown sampleFeed t ∧
      t.handled.map Handled.message =
        [.inr [1, 0, 0, 1, 0x67, 0x42, 0xC0, 0x1E, 0, 0, 1, 0x68, 0xCE],
          .inl (.screenSession sampleFeed.session), .inr sampleFeed.keyFrame,
          .inr [0, 0, 0, 1, 0x41, 0x9A]] ∧
      .frame sampleFeed.keyFrame .discarded ∈ t.handled := by
  have hrun : exec (step 0) joined overtaken = some _ := rfl
  refine ⟨sampleFeed_wellFormed, _, ⟨rfl, rfl, rfl, hrun, rfl, by decide, rfl, rfl, rfl⟩,
    fun h ↦ ?_, rfl, by decide⟩
  obtain ⟨config, keyRequired, -, hconfigured, -⟩ := h.configured
  cases hconfigured

end Delivery

end AllRelay
