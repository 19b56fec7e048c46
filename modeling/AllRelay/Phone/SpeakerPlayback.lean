import AllRelay.Library.DropOldest
import AllRelay.Library.LabelledSystem
import AllRelay.Phone.SpeakerReceiver

/-!
# The speaker's playback thread

The receiver of `AudioReversePlayback` puts packets in a queue of 25, discarding the oldest when it
is full, and at the end of the stream marks itself finished and interrupts the playback thread. That
thread polls the queue, feeds what it gets to the decoder and, when a poll finds nothing, looks
whether the receiver has finished; then it signals the end of the stream to the decoder.

The poll and the look are two steps. A packet that is put in between them, when the receiver
finishes before the look, is left in the queue (`packet_left_behind`), and nothing else is lost
(`drained_iff_along`).
-/

open DropOldest LabelledSystem

namespace AllRelay.Speaker

/-! ### The state -/

/-- `PACKET_QUEUE_CAPACITY`. -/
def packetQueueCapacity : ℕ := 25

/-- Where the receiver is. -/
inductive Receiver where
  /-- Reading from the socket. -/
  | reading
  /-- At the first `offer`. -/
  | offering (packet : Packet)
  /-- At the `poll` after an `offer` that found no room. -/
  | polling (packet : Packet)
  /-- At the second `offer`. -/
  | retrying (packet : Packet)
  /-- Past `receiverFinished.set(true)`. -/
  | finished
deriving DecidableEq, Repr

/-- The packet that was received and not yet put in. -/
def Receiver.inHand : Receiver → List Packet
  | .offering packet | .polling packet | .retrying packet => [packet]
  | .reading | .finished => []

/-- Where the playback thread is. -/
inductive Playback where
  /-- At the `poll`, with no pending packet. -/
  | polling
  /-- At the look, after a `poll` that returned nothing. -/
  | empty
  /-- With a pending packet, at `dequeueInputBuffer`. -/
  | holding (pendingPacket : Packet)
  /-- Past the end of the stream. -/
  | endOfStream
deriving DecidableEq, Repr

/-- The pending packet. -/
def Playback.inHand : Playback → List Packet
  | .holding pendingPacket => [pendingPacket]
  | .polling | .empty | .endOfStream => []

/-- Who takes a packet out. -/
inductive Taker where
  | receiver
  | playback
deriving DecidableEq, Repr

/-- The state of the two threads. The last four fields are a record of what happened. -/
structure State where
  /-- Where the receiver is. -/
  receiver : Receiver
  /-- Where the playback thread is. -/
  playback : Playback
  /-- `packetQueue`. -/
  packetQueue : Queue Packet Taker
  /-- The playback thread has an interrupt pending. -/
  interrupted : Bool
  /-- The packets that were received. -/
  received : List Packet
  /-- The packets that were fed to the decoder. -/
  fed : List Packet
  /-- The packets that the second `offer` has refused. -/
  refused : List Packet
  /-- A packet was put in since a `poll` last returned nothing. -/
  late : Bool
deriving DecidableEq, Repr

/-- Both threads are at the start of their loops. -/
def init : State :=
  ⟨.reading, .polling, .empty, false, [], [], [], false⟩

/-- The steps. -/
inductive Label where
  /-- The receiver gets a packet that is not refused. -/
  | receive (packet : Packet)
  /-- The next step of `enqueuePacket`. -/
  | enqueue
  /-- The stream ends and the receiver is marked finished. -/
  | finish
  /-- The receiver, finished, interrupts the playback thread. -/
  | interrupt
  /-- A `poll` of the playback thread returns or throws. -/
  | poll
  /-- The playback thread looks whether the receiver has finished. -/
  | look
  /-- `dequeueInputBuffer` returns, with an input buffer or without. -/
  | feed (ready : Bool)
deriving DecidableEq, Repr

/-! ### The steps -/

namespace State

/-- There is room in the queue. -/
def hasRoom (s : State) : Prop :=
  s.packetQueue.items.length < packetQueueCapacity

instance (s : State) : Decidable s.hasRoom :=
  inferInstanceAs (Decidable (_ < _))

/-- Put the packet in. -/
def push (s : State) (packet : Packet) : State :=
  { s with packetQueue := s.packetQueue.push packet, receiver := .reading, late := true }

/-- One step of `enqueuePacket`. -/
def enqueue (s : State) : Option State :=
  match s.receiver with
  | .offering packet =>
    if s.hasRoom then s.push packet else some { s with receiver := .polling packet }
  | .polling packet =>
    match s.packetQueue.pop .receiver with
    | some (_, packetQueue) => some { s with packetQueue, receiver := .retrying packet }
    | none => some { s with receiver := .retrying packet }
  | .retrying packet =>
    if s.hasRoom then s.push packet
    else some { s with receiver := .reading, refused := s.refused ++ [packet] }
  | .reading | .finished => none

/-- A `poll` with a timeout: it throws when an interrupt is pending, and takes the oldest packet or,
after the timeout, returns nothing. -/
def poll (s : State) : Option State :=
  match s.playback with
  | .polling =>
    if s.interrupted then some { s with interrupted := false }
    else
      match s.packetQueue.pop .playback with
      | some (packet, packetQueue) => some { s with packetQueue, playback := .holding packet }
      | none => some { s with playback := .empty, late := false }
  | .empty | .holding _ | .endOfStream => none

/-- The look at `receiverFinished`. -/
def look (s : State) : Option State :=
  if s.playback = .empty then
    if s.receiver = .finished then some { s with playback := .endOfStream }
    else some { s with playback := .polling }
  else none

/-- `dequeueInputBuffer` and, if there is a buffer, `queueInputBuffer`. -/
def feed (s : State) (ready : Bool) : Option State :=
  match s.playback with
  | .holding pendingPacket =>
    if ready then some { s with playback := .polling, fed := s.fed ++ [pendingPacket] } else some s
  | .polling | .empty | .endOfStream => none

end State

/-- One step. -/
def step (s : State) : Label → Option State
  | .receive packet =>
    if s.receiver = .reading then
      some { s with receiver := .offering packet, received := s.received ++ [packet] }
    else none
  | .enqueue => s.enqueue
  | .finish => if s.receiver = .reading then some { s with receiver := .finished } else none
  | .interrupt => if s.receiver = .finished then some { s with interrupted := true } else none
  | .poll => s.poll
  | .look => s.look
  | .feed ready => s.feed ready

/-! ### What is claimed -/

/-- The packets fed are in order the packets received but for those that were discarded as the
oldest, those still in the queue and those in a hand; and at the end of the stream none are left. -/
structure State.Drained (s : State) : Prop where
  /-- Every packet received was put in, but for the one in the receiver's hand. -/
  received : s.received = s.packetQueue.pushed ++ s.receiver.inHand
  /-- No packet was refused. -/
  refused : s.refused = []
  /-- Every packet that the playback thread took was fed, but for the pending one. -/
  fed : s.packetQueue.taken .playback = s.fed ++ s.playback.inHand
  /-- At the end of the stream every packet received was fed or discarded. -/
  drained : s.playback = .endOfStream → s.packetQueue.items = [] ∧
    s.received = s.packetQueue.removed.map Prod.fst ∧ s.packetQueue.taken .playback = s.fed

/-- No packet was put in between a `poll` that returned nothing and a look that finds
the receiver finished. -/
def inTime (s : State) (l : Label) : Prop :=
  l = .look → s.playback = .empty → s.receiver = .finished → s.late = false

instance (s : State) (l : Label) : Decidable (inTime s l) :=
  inferInstanceAs (Decidable (_ → _ → _ → _))

/-! ### The invariant -/

/-- What holds between any two steps. -/
structure Inv (s : State) : Prop where
  received : s.received = s.packetQueue.pushed ++ s.receiver.inHand
  refused : s.refused = []
  fed : s.packetQueue.taken .playback = s.fed ++ s.playback.inHand
  /-- The queue holds at most 25 packets. -/
  fits : s.packetQueue.items.length ≤ packetQueueCapacity
  /-- The room that the receiver has made stays. -/
  room : ∀ packet, s.receiver = .retrying packet → s.hasRoom
  /-- Between a `poll` that returned nothing and the look, the queue is empty until a packet is put
  in. -/
  early : s.playback = .empty → s.late = false → s.packetQueue.items = []
  /-- From then on it is not, but for the moment in which the receiver makes room. -/
  late : s.playback = .empty → s.late = true → (∀ packet, s.receiver ≠ .retrying packet) →
    s.packetQueue.items ≠ []
  /-- The end of the stream is after the end of the receiver. -/
  finished : s.playback = .endOfStream → s.receiver = .finished

theorem inv_init : Inv init where
  received := rfl
  refused := rfl
  fed := rfl
  fits := Nat.zero_le _
  room _ h := Receiver.noConfusion h
  early h := Playback.noConfusion h
  late h := Playback.noConfusion h
  finished h := Playback.noConfusion h

variable {s t : State} {packet packet' : Packet} {q : Queue Packet Taker}

namespace Inv

/-- The end of the stream is not reached while the receiver runs. -/
theorem running (hs : Inv s) (h : s.receiver ≠ .finished) : s.playback ≠ .endOfStream :=
  fun hend ↦ h (hs.finished hend)

/-- The packet in hand is put in where there is room. -/
theorem push (hs : Inv s) (hroom : s.hasRoom) (hhand : s.receiver.inHand = [packet]) :
    Inv (s.push packet) where
  received := by
    rw [show (s.push packet).received = s.received from rfl, hs.received, hhand]
    exact ((List.append_nil _).trans (Queue.pushed_push ..)).symm
  refused := hs.refused
  fed := hs.fed
  fits := by
    show (s.packetQueue.items ++ [packet]).length ≤ packetQueueCapacity
    rw [List.length_append, List.length_singleton]
    exact hroom
  room _ h := Receiver.noConfusion h
  early _ h := Bool.noConfusion h
  late _ _ _ := List.append_ne_nil_of_right_ne_nil _ (List.cons_ne_nil _ _)
  finished hend := by
    refine absurd hend (hs.running fun hfinished ↦ ?_)
    rw [hfinished] at hhand
    exact List.cons_ne_nil _ _ hhand.symm

/-- The receiver moves on with the packet in its hand. -/
theorem move (hs : Inv s) {r : Receiver} (hhand : r.inHand = s.receiver.inHand)
    (hroom : ∀ packet, r = .retrying packet → s.hasRoom)
    (hretry : ∀ packet, s.receiver ≠ .retrying packet)
    (hrunning : s.receiver ≠ .finished) : Inv { s with receiver := r } where
  received := by
    show s.received = s.packetQueue.pushed ++ r.inHand
    rw [hhand]
    exact hs.received
  refused := hs.refused
  fed := hs.fed
  fits := hs.fits
  room := hroom
  early := hs.early
  late hempty hlate _ := hs.late hempty hlate hretry
  finished hend := absurd hend (hs.running hrunning)

/-- A new packet. -/
theorem receive (hs : Inv s) (h : s.receiver = .reading) (packet : Packet) :
    Inv { s with receiver := .offering packet, received := s.received ++ [packet] } where
  received := by
    show s.received ++ [packet] = s.packetQueue.pushed ++ [packet]
    rw [hs.received, h]
    exact congrArg (· ++ _) (List.append_nil _)
  refused := hs.refused
  fed := hs.fed
  fits := hs.fits
  room _ h := Receiver.noConfusion h
  early := hs.early
  late hempty hlate _ := by
    refine hs.late hempty hlate fun _ hretry ↦ ?_
    rw [h] at hretry
    exact Receiver.noConfusion hretry
  finished hend := by
    refine absurd hend (hs.running fun hfinished ↦ ?_)
    rw [h] at hfinished
    exact Receiver.noConfusion hfinished

/-- The receiver discards the oldest packet. -/
theorem discard (hs : Inv s) (h : s.receiver = .polling packet)
    (hpop : s.packetQueue.pop .receiver = some (packet', q)) :
    Inv { s with packetQueue := q, receiver := .retrying packet } where
  received := by
    show s.received = q.pushed ++ [packet]
    rw [Queue.pushed_pop hpop, hs.received, h]
    rfl
  refused := hs.refused
  fed := by
    show q.taken .playback = _
    rw [Queue.taken_pop_of_ne hpop Taker.noConfusion]
    exact hs.fed
  fits := by
    have hlen := Queue.length_items_pop hpop
    have hfits := hs.fits
    show q.items.length ≤ packetQueueCapacity
    omega
  room _ _ := by
    have hlen := Queue.length_items_pop hpop
    have hfits := hs.fits
    show q.items.length < packetQueueCapacity
    omega
  early hempty hlate := by
    -- the queue was empty, and yet a packet was taken from it
    have hitems := hs.early hempty hlate
    rw [(Queue.pop_eq_some_iff.1 hpop).1] at hitems
    exact absurd hitems (List.cons_ne_nil _ _)
  late _ _ hretry := absurd rfl (hretry packet)
  finished hend := by
    refine absurd hend (hs.running fun hfinished ↦ ?_)
    rw [h] at hfinished
    exact Receiver.noConfusion hfinished

/-- The playback thread takes a packet. -/
theorem take (hs : Inv s) (h : s.playback = .polling)
    (hpop : s.packetQueue.pop .playback = some (packet, q)) :
    Inv { s with packetQueue := q, playback := .holding packet } where
  received := by
    show s.received = q.pushed ++ _
    rw [Queue.pushed_pop hpop]
    exact hs.received
  refused := hs.refused
  fed := by
    show q.taken .playback = s.fed ++ [packet]
    rw [Queue.taken_pop hpop, hs.fed, h]
    exact congrArg (· ++ _) (List.append_nil _)
  fits := by
    have hlen := Queue.length_items_pop hpop
    have hfits := hs.fits
    show q.items.length ≤ packetQueueCapacity
    omega
  room packet h := by
    have hlen := Queue.length_items_pop hpop
    have hroom : s.packetQueue.items.length < packetQueueCapacity := hs.room packet h
    show q.items.length < packetQueueCapacity
    omega
  early h := Playback.noConfusion h
  late h := Playback.noConfusion h
  finished h := Playback.noConfusion h

/-- The playback thread moves on. -/
theorem movePlayback (hs : Inv s) {p : Playback} {fed : List Packet} {late : Bool}
    (hfed : fed ++ p.inHand = s.fed ++ s.playback.inHand)
    (hearly : p = .empty → late = false ∧ s.packetQueue.items = [])
    (hend : p = .endOfStream → s.receiver = .finished) :
    Inv { s with playback := p, fed := fed, late := late } where
  received := hs.received
  refused := hs.refused
  fed := hs.fed.trans hfed.symm
  fits := hs.fits
  room := hs.room
  early hempty _ := (hearly hempty).2
  late hempty hlate _ := by
    have hfalse : late = false := (hearly hempty).1
    exact absurd (hlate.symm.trans hfalse) Bool.noConfusion
  finished := hend

/-- An interrupt comes or goes. -/
theorem interrupts (hs : Inv s) (b : Bool) : Inv { s with interrupted := b } :=
  ⟨hs.received, hs.refused, hs.fed, hs.fits, hs.room, hs.early, hs.late, hs.finished⟩

/-- A step of `enqueuePacket`. -/
theorem enqueue (hs : Inv s) (h : s.enqueue = some t) : Inv t := by
  unfold State.enqueue at h
  match hc : s.receiver with
  | .reading | .finished =>
    simp only [hc] at h
    exact absurd h (Option.some_ne_none _).symm
  | .offering packet =>
    simp only [hc] at h
    split at h
    · rename_i hroom
      exact Option.some.inj h ▸ hs.push hroom (by rw [hc]; rfl)
    · exact Option.some.inj h ▸ hs.move (by rw [hc]; rfl) (fun _ h ↦ Receiver.noConfusion h)
        (by rw [hc]; exact fun _ ↦ Receiver.noConfusion) (by rw [hc]; exact Receiver.noConfusion)
  | .polling packet =>
    simp only [hc] at h
    match hpop : s.packetQueue.pop .receiver with
    | some (packet', q) =>
      simp only [hpop] at h
      exact Option.some.inj h ▸ hs.discard hc hpop
    | none =>
      simp only [hpop] at h
      have hroom : s.hasRoom := by
        show s.packetQueue.items.length < packetQueueCapacity
        rw [Queue.pop_eq_none_iff.1 hpop]
        decide
      exact Option.some.inj h ▸ hs.move (by rw [hc]; rfl) (fun _ _ ↦ hroom)
        (by rw [hc]; exact fun _ ↦ Receiver.noConfusion) (by rw [hc]; exact Receiver.noConfusion)
  | .retrying packet =>
    simp only [hc, if_pos (hs.room packet hc)] at h
    exact Option.some.inj h ▸ hs.push (hs.room packet hc) (by rw [hc]; rfl)

/-- A `poll`. -/
theorem poll (hs : Inv s) (h : s.poll = some t) : Inv t := by
  unfold State.poll at h
  match hc : s.playback with
  | .empty | .holding _ | .endOfStream =>
    simp only [hc] at h
    exact absurd h (Option.some_ne_none _).symm
  | .polling =>
    simp only [hc] at h
    split at h
    · refine Option.some.inj h ▸ ?_
      rw [← hc]
      exact hs.interrupts false
    · match hpop : s.packetQueue.pop .playback with
      | some (packet, q) =>
        simp only [hpop] at h
        exact Option.some.inj h ▸ hs.take hc hpop
      | none =>
        simp only [hpop] at h
        exact Option.some.inj h ▸ hs.movePlayback (by rw [hc]; rfl)
          (fun _ ↦ ⟨rfl, Queue.pop_eq_none_iff.1 hpop⟩) fun h ↦ Playback.noConfusion h

/-- A look. -/
theorem look (hs : Inv s) (h : s.look = some t) : Inv t := by
  obtain ⟨hempty, h⟩ := Option.ite_none_right_eq_some.1 h
  split at h
  · rename_i hfinished
    exact Option.some.inj h ▸ hs.movePlayback (by rw [hempty]; rfl)
      (fun h ↦ Playback.noConfusion h) fun _ ↦ hfinished
  · exact Option.some.inj h ▸ hs.movePlayback (by rw [hempty]; rfl)
      (fun h ↦ Playback.noConfusion h) fun h ↦ Playback.noConfusion h

/-- A packet is fed, or there is no buffer for it. -/
theorem feed (hs : Inv s) {ready : Bool} (h : s.feed ready = some t) : Inv t := by
  unfold State.feed at h
  match hc : s.playback with
  | .polling | .empty | .endOfStream =>
    simp only [hc] at h
    exact absurd h (Option.some_ne_none _).symm
  | .holding packet =>
    simp only [hc] at h
    split at h
    · exact Option.some.inj h ▸ hs.movePlayback (by rw [hc]; exact List.append_nil _)
        (fun h ↦ Playback.noConfusion h) fun h ↦ Playback.noConfusion h
    · exact Option.some.inj h ▸ hs

/-- Every step keeps it. -/
theorem step (hs : Inv s) {l : Label} (h : step s l = some t) : Inv t := by
  match l with
  | .receive packet =>
    obtain ⟨hreading, h⟩ := Option.ite_none_right_eq_some.1 h
    exact Option.some.inj h ▸ hs.receive hreading packet
  | .enqueue => exact hs.enqueue h
  | .finish =>
    obtain ⟨hreading, h⟩ := Option.ite_none_right_eq_some.1 h
    exact Option.some.inj h ▸ hs.move (by rw [hreading]; rfl) (fun _ h ↦ Receiver.noConfusion h)
      (by rw [hreading]; exact fun _ ↦ Receiver.noConfusion)
      (by rw [hreading]; exact Receiver.noConfusion)
  | .interrupt =>
    obtain ⟨-, h⟩ := Option.ite_none_right_eq_some.1 h
    exact Option.some.inj h ▸ hs.interrupts true
  | .poll => exact hs.poll h
  | .look => exact hs.look h
  | .feed _ => exact hs.feed h

/-- At a look that finds the receiver finished, the queue is empty exactly when no packet was put in
since the `poll`. -/
theorem items_eq_nil_iff (hs : Inv s) (hempty : s.playback = .empty)
    (hfinished : s.receiver = .finished) : s.packetQueue.items = [] ↔ s.late = false := by
  constructor
  · intro hitems
    refine Bool.eq_false_of_not_eq_true fun hlate ↦ hs.late hempty hlate (fun _ hretry ↦ ?_) hitems
    rw [hfinished] at hretry
    exact Receiver.noConfusion hretry
  · exact hs.early hempty

end Inv

theorem reachable_inv (h : Reachable (· = init) step s) : Inv s :=
  h.invariant (fun _ h ↦ h ▸ inv_init) fun _ _ _ hs h ↦ hs.step h

/-! ### The end of the stream -/

/-- At the end of the stream the queue is empty. -/
def State.empties (s : State) : Prop :=
  s.playback = .endOfStream → s.packetQueue.items = []

/-- A state is as claimed exactly when the queue is empty at the end of the stream. -/
theorem drained_iff_empties (hs : Inv s) : s.Drained ↔ s.empties := by
  refine ⟨fun h hend ↦ (h.drained hend).1, fun h ↦ ⟨hs.received, hs.refused, hs.fed, ?_⟩⟩
  intro hend
  have hitems := h hend
  refine ⟨hitems, ?_, ?_⟩
  · rw [hs.received, hs.finished hend, Queue.pushed, hitems, List.append_nil]
    exact List.append_nil _
  · rw [hs.fed, hend]
    exact List.append_nil _

/-- While the receiver puts a packet in, it is not finished, and the playback thread stays where it
is. -/
theorem playback_of_enqueue (h : s.enqueue = some t) :
    s.receiver ≠ .finished ∧ t.playback = s.playback := by
  unfold State.enqueue at h
  split at h
  · rename_i hc
    refine ⟨fun hfinished ↦ Receiver.noConfusion (hc.symm.trans hfinished), ?_⟩
    split at h <;> exact Option.some.inj h ▸ rfl
  · rename_i hc
    refine ⟨fun hfinished ↦ Receiver.noConfusion (hc.symm.trans hfinished), ?_⟩
    split at h <;> exact Option.some.inj h ▸ rfl
  · rename_i hc
    refine ⟨fun hfinished ↦ Receiver.noConfusion (hc.symm.trans hfinished), ?_⟩
    split at h <;> exact Option.some.inj h ▸ rfl
  · exact absurd h (Option.some_ne_none _).symm
  · exact absurd h (Option.some_ne_none _).symm

/-- A `poll` neither ends the playback thread nor follows its end. -/
theorem playback_of_poll (h : s.poll = some t) :
    s.playback ≠ .endOfStream ∧ t.playback ≠ .endOfStream := by
  unfold State.poll at h
  split at h
  · rename_i hc
    have hstart : s.playback ≠ .endOfStream := by
      rw [hc]
      exact Playback.noConfusion
    refine ⟨hstart, ?_⟩
    split at h
    · exact Option.some.inj h ▸ hstart
    · split at h <;> exact Option.some.inj h ▸ Playback.noConfusion
  all_goals exact absurd h (Option.some_ne_none _).symm

/-- Nor does the decoder. -/
theorem playback_of_feed {ready : Bool} (h : s.feed ready = some t) :
    s.playback ≠ .endOfStream ∧ t.playback ≠ .endOfStream := by
  unfold State.feed at h
  split at h
  · rename_i hc
    have hstart : s.playback ≠ .endOfStream := by
      rw [hc]
      exact Playback.noConfusion
    refine ⟨hstart, ?_⟩
    split at h
    · exact Option.some.inj h ▸ Playback.noConfusion
    · exact Option.some.inj h ▸ hstart
  all_goals exact absurd h (Option.some_ne_none _).symm

/-- No other step than a look changes whether the queue is empty at the end of the stream. -/
theorem empties_of_ne_look (hs : Inv s) {l : Label} (hl : l ≠ .look) (h : step s l = some t) :
    t.empties ↔ s.empties := by
  match l with
  | .receive packet | .finish | .interrupt =>
    obtain ⟨-, h⟩ := Option.ite_none_right_eq_some.1 h
    exact Option.some.inj h ▸ Iff.rfl
  | .enqueue =>
    obtain ⟨hrunning, hplayback⟩ := playback_of_enqueue h
    have hstart := hs.running hrunning
    exact iff_of_true (fun hend ↦ absurd (hplayback.symm.trans hend) hstart)
      fun hend ↦ absurd hend hstart
  | .poll =>
    obtain ⟨hstart, hstop⟩ := playback_of_poll h
    exact iff_of_true (fun hend ↦ absurd hend hstop) fun hend ↦ absurd hend hstart
  | .feed ready =>
    obtain ⟨hstart, hstop⟩ := playback_of_feed h
    exact iff_of_true (fun hend ↦ absurd hend hstop) fun hend ↦ absurd hend hstart
  | .look => exact absurd rfl hl

/-- A look ends the stream with an empty queue exactly when it is in time. -/
theorem empties_of_look (hs : Inv s) (h : s.look = some t) :
    t.empties ↔ s.empties ∧ inTime s .look := by
  obtain ⟨hempty, h⟩ := Option.ite_none_right_eq_some.1 h
  have hbefore : s.empties := by
    intro hend
    rw [hempty] at hend
    exact Playback.noConfusion hend
  rw [and_iff_right hbefore]
  split at h
  · rename_i hfinished
    have hitems : t.empties ↔ s.packetQueue.items = [] :=
      Option.some.inj h ▸ ⟨fun hnil ↦ hnil rfl, fun hnil _ ↦ hnil⟩
    rw [hitems, hs.items_eq_nil_iff hempty hfinished]
    exact ⟨fun hlate _ _ _ ↦ hlate, fun htime ↦ htime rfl hempty hfinished⟩
  · rename_i hrunning
    exact iff_of_true (Option.some.inj h ▸ fun hend ↦ Playback.noConfusion hend)
      fun _ _ hfinished ↦ absurd hfinished hrunning

/-- One step. -/
theorem empties_step (hs : Inv s) {l : Label} (h : step s l = some t) :
    t.empties ↔ s.empties ∧ inTime s l := by
  by_cases hl : l = .look
  · subst hl
    exact empties_of_look hs h
  · rw [empties_of_ne_look hs hl h]
    exact (and_iff_left fun hlook ↦ absurd hlook hl).symm

/-- **The queue is drained**: a run ends as claimed exactly when no packet is put in between a
`poll` that returned nothing and a look that finds the receiver finished. -/
theorem drained_iff_along {ls : List Label} (h : exec step init ls = some s) :
    s.Drained ↔ Along step inTime init ls := by
  have hreachable : ∀ (s : State) (_ : Label), Reachable (· = init) step s → Inv s :=
    fun _ _ h ↦ reachable_inv h
  have hstart : Reachable (· = init) step init := ⟨init, [], rfl, rfl⟩
  have hinv : Inv s := reachable_inv (hstart.of_exec h)
  have hrun := exec_iff_along (C := inTime) (D := fun s _ ↦ Inv s)
    (fun _ _ _ hs h ↦ empties_step hs h) (exec_step_along hreachable hstart) h
  have hinit : init.empties := fun hend ↦ Playback.noConfusion hend
  rw [drained_iff_empties hinv, hrun]
  exact and_iff_right hinit

/-- A packet arrives and the stream ends; the interrupt throws in one `poll`, and the next takes the
packet. -/
def inTimeRun : List Label :=
  [.receive ⟨[1], 0⟩, .enqueue, .finish, .interrupt, .poll, .poll, .feed false, .feed true, .poll,
    .look]

/-- That packet is fed before the end of the stream. -/
theorem drained_inTimeRun :
    ∃ s, exec step init inTimeRun = some s ∧ s.playback = .endOfStream ∧ s.fed = [⟨[1], 0⟩] ∧
      s.Drained :=
  ⟨_, rfl, rfl, rfl, (@drained_iff_along _ inTimeRun rfl).2 (by decide)⟩

/-- A packet arrives after a `poll` has found nothing, and the stream ends before the look. -/
def lateRun : List Label :=
  [.poll, .receive ⟨[1], 0⟩, .enqueue, .finish, .look]

/-- **A packet is left behind**: the playback thread signals the end of the stream with that packet
in the queue. -/
theorem packet_left_behind : ¬∀ ls s, exec step init ls = some s → s.Drained := by
  intro hall
  have hdrained : ∀ s, exec step init lateRun = some s →
      s.playback = .endOfStream → s.packetQueue.items = [] :=
    fun s hs hend ↦ ((hall lateRun s hs).drained hend).1
  exact List.cons_ne_nil _ _ (hdrained _ rfl rfl)

end AllRelay.Speaker
