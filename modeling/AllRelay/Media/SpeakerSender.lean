import AllRelay.Hub.State
import AllRelay.Library.DropOldest
import AllRelay.Library.LabelledSystem
import Mathlib.Data.List.Range

/-!
# The queue of the speaker sender

`runSpeakerCapture` encodes a frame of sound at a time and hands it to a goroutine that writes it to
the socket, through a channel of five frames. When the channel is full the capture loop takes the
oldest frame out and puts the new one in, in separate steps, while the sender takes frames at the
other end. After a failed write the sender only empties the channel.

Every choice is in the label of a step: what was encoded, whether a write succeeds, who goes next.
The capture loop is the only one that puts frames in, so the room that it has made is still there in
its next step (`Inv.room`), which is why it never blocks and never gives up the frame in its hand.
-/

open DropOldest LabelledSystem

namespace AllRelay.SpeakerSender

/-! ### The state -/

/-- `queueFrames`. -/
def queueFrames : ℕ := 5

/-- `frameMs`. -/
def frameMs : ℕ := 20

/-- `opusPacket`; its time stamp is in microseconds, of which 64 bits hold half a million years. -/
structure OpusPacket where
  /-- `pts`. -/
  pts : ℕ
  /-- `data`. -/
  data : Bytes
deriving DecidableEq, Repr

/-- Where the capture loop is. -/
inductive Capture where
  /-- Reading and encoding. -/
  | reading
  /-- At the first `select`. -/
  | offering (pkt : OpusPacket)
  /-- At the second, after the first found no room. -/
  | evicting (pkt : OpusPacket)
  /-- At the send after the oldest frame was taken out; this send has no `default`. -/
  | sending (pkt : OpusPacket)
  /-- At the third, after the second found nothing to take. -/
  | retrying (pkt : OpusPacket)
  /-- Past the loop, with the channel closed. -/
  | ended
deriving DecidableEq, Repr

/-- The frame that the capture loop has encoded and not yet put in. -/
def Capture.inHand : Capture → List OpusPacket
  | .offering pkt | .evicting pkt | .sending pkt | .retrying pkt => [pkt]
  | .reading | .ended => []

/-- Where the sender is. -/
inductive Sender where
  /-- At the receive of its loop. -/
  | receiving
  /-- In `WritePacket`. -/
  | writing (pkt : OpusPacket)
  /-- Emptying the channel after a failed write. -/
  | draining
  /-- Ended. -/
  | done
deriving DecidableEq, Repr

/-- The frame that the sender has received and not yet written. -/
def Sender.inHand : Sender → List OpusPacket
  | .writing pkt => [pkt]
  | .receiving | .draining | .done => []

/-- Who takes a frame out. -/
inductive Taker where
  | capture
  | sender
deriving DecidableEq, Repr

/-- The state of the two. The last four fields are a record of what happened. -/
structure State where
  /-- Where the capture loop is. -/
  capture : Capture
  /-- Where the sender is. -/
  sender : Sender
  /-- `queue`. -/
  queue : Queue OpusPacket Taker
  /-- `frameCount`. -/
  frameCount : ℕ
  /-- The frames that were encoded. -/
  produced : List OpusPacket
  /-- The frames that were written. -/
  written : List OpusPacket
  /-- The frames that a failed write, or the emptying after it, has used up. -/
  lost : List OpusPacket
  /-- The frames that the capture loop has given up without putting them in. -/
  refused : List OpusPacket
deriving DecidableEq, Repr

/-- Before the first frame. -/
def init : State :=
  ⟨.reading, .receiving, .empty, 0, [], [], [], []⟩

/-- The steps. -/
inductive Label where
  /-- A frame is read and encoded. -/
  | encode (data : Bytes)
  /-- A read or the encoder fails; the channel is closed. -/
  | finish
  /-- The next `select`, or the send, of the capture loop. -/
  | enqueue
  /-- The sender receives from the channel, or finds that it is closed. -/
  | receive
  /-- `WritePacket` returns. -/
  | write (ok : Bool)
deriving DecidableEq, Repr

/-! ### The steps -/

namespace State

/-- There is room in the channel. -/
def hasRoom (s : State) : Prop :=
  s.queue.items.length < queueFrames

instance (s : State) : Decidable s.hasRoom :=
  inferInstanceAs (Decidable (_ < _))

/-- Put the frame in. -/
def push (s : State) (pkt : OpusPacket) : State :=
  { s with queue := s.queue.push pkt, capture := .reading }

/-- Encode a frame. -/
def encode (s : State) (data : Bytes) : State :=
  { s with
    frameCount := s.frameCount + 1
    produced := s.produced ++ [⟨(s.frameCount + 1) * (frameMs * 1000), data⟩]
    capture := .offering ⟨(s.frameCount + 1) * (frameMs * 1000), data⟩ }

/-- One `select` of the capture loop; a `select` with a `default` takes it when its case would
block, and the send without one then blocks. -/
def enqueue (s : State) : Option State :=
  match s.capture with
  | .offering pkt => if s.hasRoom then s.push pkt else some { s with capture := .evicting pkt }
  | .evicting pkt =>
    match s.queue.pop .capture with
    | some (_, queue) => some { s with queue, capture := .sending pkt }
    | none => some { s with capture := .retrying pkt }
  | .sending pkt => if s.hasRoom then s.push pkt else none
  | .retrying pkt =>
    if s.hasRoom then s.push pkt
    else some { s with capture := .reading, refused := s.refused ++ [pkt] }
  | .reading | .ended => none

/-- A receive of the sender. -/
def receive (s : State) : Option State :=
  match s.sender, s.queue.pop .sender with
  | .receiving, some (pkt, queue) => some { s with queue, sender := .writing pkt }
  | .draining, some (pkt, queue) => some { s with queue, lost := s.lost ++ [pkt] }
  | .receiving, none | .draining, none =>
    if s.capture = .ended then some { s with sender := .done } else none
  | .writing _, _ | .done, _ => none

/-- `WritePacket` returns. -/
def write (s : State) (ok : Bool) : Option State :=
  match s.sender with
  | .writing pkt =>
    if ok then some { s with sender := .receiving, written := s.written ++ [pkt] }
    else some { s with sender := .draining, lost := s.lost ++ [pkt] }
  | .receiving | .draining | .done => none

end State

/-- One step. -/
def step (s : State) : Label → Option State
  | .encode data => if s.capture = .reading then some (s.encode data) else none
  | .finish => if s.capture = .reading then some { s with capture := .ended } else none
  | .enqueue => s.enqueue
  | .receive => s.receive
  | .write ok => s.write ok

/-! ### The invariant -/

/-- What holds between any two steps. -/
structure Inv (s : State) : Prop where
  /-- Every frame was put in, but for the one in hand. -/
  produced : s.produced = s.queue.pushed ++ s.capture.inHand
  /-- No frame was given up. -/
  refused : s.refused = []
  /-- The channel holds at most five frames. -/
  fits : s.queue.items.length ≤ queueFrames
  /-- The room that was made stays. -/
  room : ∀ pkt, s.capture = .sending pkt → s.hasRoom
  /-- An empty channel has room. -/
  retry : ∀ pkt, s.capture = .retrying pkt → s.hasRoom
  /-- What the sender took was written or used up, but for the one in hand. -/
  handled : s.queue.taken .sender = s.written ++ s.lost ++ s.sender.inHand
  /-- Before a failed write nothing was used up. -/
  healthy : s.sender = .receiving ∨ s.sender.inHand ≠ [] → s.lost = []
  /-- The time stamps count the frames. -/
  stamps : s.produced.map OpusPacket.pts =
    (List.range s.frameCount).map fun i ↦ (i + 1) * (frameMs * 1000)

theorem inv_init : Inv init where
  produced := rfl
  refused := rfl
  fits := Nat.zero_le _
  room _ h := Capture.noConfusion h
  retry _ h := Capture.noConfusion h
  handled := rfl
  healthy _ := rfl
  stamps := rfl

variable {s t : State} {pkt pkt' : OpusPacket} {q : Queue OpusPacket Taker}

/-- A sender that only empties the channel, or has ended, is not healthy. -/
theorem not_healthy {sender : Sender} {P : Prop} (hreceiving : sender ≠ .receiving)
    (hhand : sender.inHand = []) : sender = .receiving ∨ sender.inHand ≠ [] → P := by
  rintro (h | h)
  · exact absurd h hreceiving
  · exact absurd hhand h

namespace Inv

/-- Taking a frame out makes room. -/
theorem room_pop {who : Taker} (hs : Inv s) (hpop : s.queue.pop who = some (pkt', q)) :
    q.items.length < queueFrames := by
  have hlen := Queue.length_items_pop hpop
  have hfits := hs.fits
  omega

/-- The frame in hand is put in where there is room. -/
theorem push (hs : Inv s) (hroom : s.hasRoom) (hhand : s.capture.inHand = [pkt]) :
    Inv (s.push pkt) where
  produced := by
    rw [show (s.push pkt).produced = s.produced from rfl, hs.produced, hhand]
    exact ((List.append_nil _).trans (Queue.pushed_push ..)).symm
  refused := hs.refused
  fits := by
    show (s.queue.items ++ [pkt]).length ≤ queueFrames
    rw [List.length_append, List.length_singleton]
    exact hroom
  room _ h := Capture.noConfusion h
  retry _ h := Capture.noConfusion h
  handled := hs.handled
  healthy := hs.healthy
  stamps := hs.stamps

/-- A new frame. -/
theorem encode (hs : Inv s) (h : s.capture = .reading) (data : Bytes) : Inv (s.encode data) where
  produced := by
    show s.produced ++ [_] = s.queue.pushed ++ [_]
    rw [hs.produced, h]
    exact congrArg (· ++ _) (List.append_nil _)
  refused := hs.refused
  fits := hs.fits
  room _ h := Capture.noConfusion h
  retry _ h := Capture.noConfusion h
  handled := hs.handled
  healthy := hs.healthy
  stamps := by
    show (s.produced ++ [_]).map OpusPacket.pts = (List.range (s.frameCount + 1)).map _
    rw [List.map_append, hs.stamps, List.range_succ, List.map_append]
    rfl

/-- The capture loop moves on with the frame in its hand. -/
theorem move (hs : Inv s) {c : Capture} (hhand : c.inHand = s.capture.inHand)
    (hroom : ∀ pkt, c = .sending pkt → s.hasRoom) (hretry : ∀ pkt, c = .retrying pkt → s.hasRoom) :
    Inv { s with capture := c } where
  produced := by
    show s.produced = s.queue.pushed ++ c.inHand
    rw [hhand]
    exact hs.produced
  refused := hs.refused
  fits := hs.fits
  room := hroom
  retry := hretry
  handled := hs.handled
  healthy := hs.healthy
  stamps := hs.stamps

/-- The oldest frame is taken out. -/
theorem evict (hs : Inv s) (h : s.capture = .evicting pkt)
    (hpop : s.queue.pop .capture = some (pkt', q)) :
    Inv { s with queue := q, capture := .sending pkt } where
  produced := by
    show s.produced = q.pushed ++ [pkt]
    rw [Queue.pushed_pop hpop, hs.produced, h]
    rfl
  refused := hs.refused
  fits := Nat.le_of_lt (hs.room_pop hpop)
  room _ _ := hs.room_pop hpop
  retry pkt h := Capture.noConfusion h
  handled := by
    show q.taken .sender = _
    rw [Queue.taken_pop_of_ne hpop Taker.noConfusion]
    exact hs.handled
  healthy := hs.healthy
  stamps := hs.stamps

/-- The sender takes a frame, to write it or after a failed write. -/
theorem take (hs : Inv s) (hpop : s.queue.pop .sender = some (pkt, q)) {sender : Sender}
    {lost : List OpusPacket} (hhand : s.sender.inHand = [])
    (hlost : lost ++ sender.inHand = s.lost ++ [pkt])
    (hhealthy : sender = .receiving ∨ sender.inHand ≠ [] → lost = []) :
    Inv { s with queue := q, sender := sender, lost := lost } where
  produced := by
    show s.produced = q.pushed ++ _
    rw [Queue.pushed_pop hpop]
    exact hs.produced
  refused := hs.refused
  fits := Nat.le_of_lt (hs.room_pop hpop)
  room _ _ := hs.room_pop hpop
  retry _ _ := hs.room_pop hpop
  handled := by
    show q.taken .sender = s.written ++ lost ++ sender.inHand
    rw [Queue.taken_pop hpop, hs.handled, hhand, List.append_nil, List.append_assoc,
      List.append_assoc, hlost]
  healthy := hhealthy
  stamps := hs.stamps

/-- The sender moves on. -/
theorem moveSender (hs : Inv s) {sender : Sender} {written lost : List OpusPacket}
    (hhandled : written ++ lost ++ sender.inHand = s.written ++ s.lost ++ s.sender.inHand)
    (hhealthy : sender = .receiving ∨ sender.inHand ≠ [] → lost = []) :
    Inv { s with sender := sender, written := written, lost := lost } where
  produced := hs.produced
  refused := hs.refused
  fits := hs.fits
  room := hs.room
  retry := hs.retry
  handled := hs.handled.trans hhandled.symm
  healthy := hhealthy
  stamps := hs.stamps

/-- A `select` of the capture loop. -/
theorem enqueue (hs : Inv s) (h : s.enqueue = some t) : Inv t := by
  unfold State.enqueue at h
  match hc : s.capture with
  | .reading | .ended =>
    rw [hc] at h
    exact absurd h (Option.some_ne_none _).symm
  | .offering pkt =>
    simp only [hc] at h
    split at h
    · rename_i hroom
      exact Option.some.inj h ▸ hs.push hroom (by rw [hc]; rfl)
    · exact Option.some.inj h ▸ hs.move (by rw [hc]; rfl) (fun _ h ↦ Capture.noConfusion h)
        fun _ h ↦ Capture.noConfusion h
  | .evicting pkt =>
    simp only [hc] at h
    match hpop : s.queue.pop .capture with
    | some (pkt', q) =>
      simp only [hpop] at h
      exact Option.some.inj h ▸ hs.evict hc hpop
    | none =>
      simp only [hpop] at h
      have hroom : s.hasRoom := by
        show s.queue.items.length < queueFrames
        rw [Queue.pop_eq_none_iff.1 hpop]
        decide
      exact Option.some.inj h ▸ hs.move (by rw [hc]; rfl) (fun _ h ↦ Capture.noConfusion h)
        fun _ _ ↦ hroom
  | .sending pkt =>
    simp only [hc, if_pos (hs.room pkt hc)] at h
    exact Option.some.inj h ▸ hs.push (hs.room pkt hc) (by rw [hc]; rfl)
  | .retrying pkt =>
    simp only [hc, if_pos (hs.retry pkt hc)] at h
    exact Option.some.inj h ▸ hs.push (hs.retry pkt hc) (by rw [hc]; rfl)

/-- A receive of the sender. -/
theorem receive (hs : Inv s) (h : s.receive = some t) : Inv t := by
  unfold State.receive at h
  match hc : s.sender, hpop : s.queue.pop .sender with
  | .receiving, some (pkt, q) =>
    simp only [hc, hpop] at h
    have hlost : s.lost = [] := hs.healthy (.inl hc)
    exact Option.some.inj h ▸ hs.take hpop (by rw [hc]; rfl) rfl fun _ ↦ hlost
  | .draining, some (pkt, q) =>
    simp only [hc, hpop] at h
    exact Option.some.inj h ▸ hs.take hpop (by rw [hc]; rfl) (List.append_nil _)
      (not_healthy Sender.noConfusion rfl)
  | .receiving, none | .draining, none =>
    simp only [hc, hpop] at h
    split at h
    · exact Option.some.inj h ▸ hs.moveSender (by rw [hc]; rfl)
        (not_healthy Sender.noConfusion rfl)
    · exact absurd h (Option.some_ne_none _).symm
  | .writing _, _ | .done, _ =>
    simp only [hc] at h
    exact absurd h (Option.some_ne_none _).symm

/-- A write returns. -/
theorem write (hs : Inv s) {ok : Bool} (h : s.write ok = some t) : Inv t := by
  unfold State.write at h
  match hc : s.sender with
  | .writing pkt =>
    simp only [hc] at h
    have hlost : s.lost = [] := hs.healthy (.inr (by rw [hc]; exact List.cons_ne_nil _ _))
    split at h
    · refine Option.some.inj h ▸ hs.moveSender ?_ fun _ ↦ hlost
      rw [hc, hlost, List.append_nil, List.append_nil]
      exact List.append_nil _
    · refine Option.some.inj h ▸ hs.moveSender ?_ (not_healthy Sender.noConfusion rfl)
      rw [hc, ← List.append_assoc]
      exact List.append_nil _
  | .receiving | .draining | .done =>
    simp only [hc] at h
    exact absurd h (Option.some_ne_none _).symm

/-- Every step keeps it. -/
theorem step (hs : Inv s) {l : Label} (h : step s l = some t) : Inv t := by
  match l with
  | .encode data =>
    obtain ⟨hreading, h⟩ := Option.ite_none_right_eq_some.1 h
    exact Option.some.inj h ▸ hs.encode hreading data
  | .finish =>
    obtain ⟨hreading, h⟩ := Option.ite_none_right_eq_some.1 h
    exact Option.some.inj h ▸ hs.move (by rw [hreading]; rfl) (fun _ h ↦ Capture.noConfusion h)
      fun _ h ↦ Capture.noConfusion h
  | .enqueue => exact hs.enqueue h
  | .receive => exact hs.receive h
  | .write _ => exact hs.write h

/-- Every run keeps it. -/
theorem exec {ls : List Label} (h : exec SpeakerSender.step init ls = some s) : Inv s :=
  exec_invariant (fun _ _ _ hs h ↦ hs.step h) inv_init h

/-- **The capture loop never blocks** in the middle of putting a frame in. -/
theorem enqueue_isSome (hs : Inv s) (h : s.capture.inHand ≠ []) : s.enqueue.isSome := by
  unfold State.enqueue
  match hc : s.capture with
  | .reading | .ended => exact absurd (by rw [hc]; rfl) h
  | .offering pkt =>
    dsimp only
    split <;> rfl
  | .evicting pkt =>
    dsimp only
    split <;> rfl
  | .sending pkt =>
    dsimp only
    rw [if_pos (hs.room pkt hc)]
    rfl
  | .retrying pkt =>
    dsimp only
    rw [if_pos (hs.retry pkt hc)]
    rfl

/-- The channel holds the last frames that were put in. -/
theorem recent (hs : Inv s) :
    ∃ older, s.produced = older ++ s.queue.items ++ s.capture.inHand :=
  ⟨s.queue.removed.map Prod.fst, hs.produced⟩

/-- What was written was produced, in this order. -/
theorem written_sublist (hs : Inv s) : s.written.Sublist s.produced := by
  have htaken : s.written.Sublist (s.queue.taken .sender) := by
    rw [hs.handled, List.append_assoc]
    exact List.sublist_append_left ..
  have hpushed : s.queue.pushed.Sublist s.produced := by
    rw [hs.produced]
    exact List.sublist_append_left ..
  exact (htaken.trans (Queue.taken_sublist ..)).trans hpushed

/-- Time stamps grow from frame to frame. -/
theorem pts_pairwise (hs : Inv s) : (s.produced.map OpusPacket.pts).Pairwise (· < ·) := by
  rw [hs.stamps]
  refine List.pairwise_map.2 (List.pairwise_lt_range.imp fun hij ↦ ?_)
  have hframe : 0 < frameMs * 1000 := by decide
  exact Nat.mul_lt_mul_of_pos_right (Nat.succ_lt_succ hij) hframe

/-- Every frame is written, used up, discarded, in the channel or in a hand. -/
theorem conservation (hs : Inv s) :
    s.produced.length = s.written.length + (s.queue.taken .capture).length +
      s.queue.items.length + s.lost.length + s.sender.inHand.length + s.capture.inHand.length := by
  have htakers : ∀ k : Taker, k = .sender ∨ k = .capture := by
    intro k
    match k with
    | .capture => exact .inr rfl
    | .sender => exact .inl rfl
  have hpushed := s.queue.length_pushed htakers Taker.noConfusion
  rw [hs.handled, List.length_append, List.length_append] at hpushed
  rw [hs.produced, List.length_append]
  omega

end Inv

/-! ### Every run -/

/-- No party has a frame in hand. -/
def State.quiescent (s : State) : Prop :=
  s.capture.inHand = [] ∧ s.sender.inHand = []

/-- **The queue of the sender**, after every schedule: the capture loop can always take its next
step; the channel holds at most five frames, the last that were put in; what is written is a
subsequence of what was encoded and its time stamps grow; and every frame is written, discarded as
the oldest, in the channel or used up by a failed write, and none is given up by the capture
loop. -/
theorem speaker_queue {ls : List Label} (h : exec step init ls = some s) :
    (s.capture.inHand ≠ [] → (step s .enqueue).isSome) ∧
      s.queue.items.length ≤ queueFrames ∧
      (∃ older, s.produced = older ++ s.queue.items ++ s.capture.inHand) ∧
      s.written.Sublist s.produced ∧ (s.written.map OpusPacket.pts).Pairwise (· < ·) ∧
      (s.quiescent →
        s.produced.length = s.written.length + (s.queue.taken .capture).length +
          s.queue.items.length + s.lost.length) ∧
      s.refused = [] := by
  have hs := Inv.exec h
  refine ⟨hs.enqueue_isSome, hs.fits, hs.recent, hs.written_sublist, ?_, fun hquiet ↦ ?_,
    hs.refused⟩
  · exact hs.pts_pairwise.sublist (hs.written_sublist.map _)
  · have hcount := hs.conservation
    rw [hquiet.1, hquiet.2] at hcount
    exact hcount

/-- Seven frames are encoded and a write of the first is under way; the second is discarded. -/
def overflowRun : List Label :=
  [.encode [1], .enqueue, .receive, .encode [2], .enqueue, .encode [3], .enqueue, .encode [4],
    .enqueue, .encode [5], .enqueue, .encode [6], .enqueue, .encode [7], .enqueue, .enqueue,
    .enqueue, .write true]

/-- After that run the first frame is written, and the last five are in the channel. -/
theorem speaker_queue_overflow :
    ∃ s, exec step init overflowRun = some s ∧
      s.quiescent ∧ s.written.length = 1 ∧ s.queue.items.length = 5 ∧
      (s.quiescent →
        s.produced.length = s.written.length + (s.queue.taken .capture).length +
          s.queue.items.length + s.lost.length) :=
  ⟨_, rfl, ⟨rfl, rfl⟩, rfl, rfl, (@speaker_queue _ overflowRun rfl).2.2.2.2.2.1⟩

end AllRelay.SpeakerSender
