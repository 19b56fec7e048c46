import AllRelay.Library.LabelledSystem
import AllRelay.Media.Packet

/-!
# Screen capture

`runScreenCapture` reads ahead 32 bytes for its log, starts the goroutine of `Demuxer.Run` on the
whole stream, and registers the handler of the screen afterwards. A packet that the demuxer looks up
before is dropped without a word.

The steps of the two goroutines interleave as the scheduler likes. Each of `Run`'s blocking reads is
one step, and a packet remembers whether the context was still alive when it had been read.
-/

open ChunkedReader LabelledSystem

namespace AllRelay.Media

/-- `StreamScreen`. -/
def streamScreen : UInt32 := 1

/-- The size of the buffer for the preamble. -/
def preambleSize : ℕ := 32

namespace ScreenCapture

/-- A packet that the demuxer has read. -/
structure Read where
  /-- The packet. -/
  packet : Packet
  /-- The context was not cancelled yet. -/
  early : Bool
deriving DecidableEq, Repr

/-- Where `runScreenCapture` is. -/
inductive Main where
  /-- Before it reads the preamble. -/
  | peeking
  /-- Before it starts the demuxer. -/
  | starting
  /-- Before `RegisterHandler`. -/
  | registering
  /-- In its `select`. -/
  | waiting
  /-- Returned. -/
  | returned
deriving DecidableEq, Repr

/-- Where the goroutine of `Demuxer.Run` is. -/
inductive Loop where
  /-- Not started. -/
  | idle
  /-- Before the check of the `done` channel. -/
  | top
  /-- Before the next packet is read. -/
  | reading
  /-- Before the lookup of the handler. -/
  | dispatching (r : Read)
  /-- Returned. -/
  | ended
deriving DecidableEq, Repr

/-- A screen capture. -/
structure State where
  /-- The goroutine of `runScreenCapture`. -/
  main : Main
  /-- The goroutine of `Demuxer.Run`. -/
  loop : Loop
  /-- What is left of the stream. -/
  reader : Reader
  /-- The handler of the screen is registered. -/
  registered : Bool
  /-- The context is cancelled. -/
  cancelled : Bool
  /-- The demuxer's `done` channel is closed. -/
  done : Bool
  /-- History: the packets that were read. -/
  read : List Read
  /-- History: the packets that were passed to the handler. -/
  delivered : List Read
deriving DecidableEq, Repr

/-- The capture of a stream. -/
def start (stream : Reader) : State :=
  ⟨.peeking, .idle, stream, false, false, false, [], []⟩

/-- What the scheduler chooses. -/
inductive Event where
  /-- The next step of `runScreenCapture`. -/
  | main
  /-- The next step of the demuxer. -/
  | demuxer
  /-- The read of the demuxer fails. -/
  | readFails
  /-- The context is cancelled. -/
  | cancel
deriving DecidableEq, Repr

/-- The next step of `runScreenCapture`. -/
def State.mainStep (s : State) : Option State :=
  match s.main with
  | .peeking =>
    let (peek, rest) := readUpTo preambleSize s.reader
    some { s with main := .starting, reader := peek :: rest }
  | .starting => some { s with main := .registering, loop := .top }
  | .registering => some { s with main := .waiting, registered := true }
  | .waiting =>
    match s.cancelled, s.loop with
    | true, _ => some { s with main := .returned, done := true }
    | false, .ended => some { s with main := .returned }
    | false, _ => none
  | .returned => none

/-- The next step of the demuxer. -/
def State.demuxerStep (s : State) : Option State :=
  match s.loop with
  | .idle => none
  | .top => some { s with loop := if s.done then .ended else .reading }
  | .reading =>
    match readPacket s.reader with
    | .ok (p, reader) =>
      some { s with
        reader
        loop := .dispatching ⟨p, !s.cancelled⟩
        read := s.read ++ [⟨p, !s.cancelled⟩] }
    | .error _ => some { s with loop := .ended }
  | .dispatching r =>
    some { s with
      loop := .top
      delivered :=
        if s.registered ∧ r.packet.header.streamID = streamScreen then s.delivered ++ [r]
        else s.delivered }
  | .ended => none

/-- One step of the system. -/
def step (s : State) : Event → Option State
  | .main => s.mainStep
  | .demuxer => s.demuxerStep
  | .readFails =>
    match s.loop with
    | .reading => some { s with loop := .ended }
    | _ => none
  | .cancel => some { s with cancelled := true }

/-! ### Lossless capture -/

/-- A packet of the screen that was read before the cancellation. -/
def Read.counts (r : Read) : Bool :=
  r.early && r.packet.header.streamID == streamScreen

/-- The packet between its read and its lookup. -/
def Loop.hand : Loop → List Read
  | .dispatching r => [r]
  | _ => []

/-- The packets read are the first ones of the stream, and each packet of the screen that was read
before the cancellation was passed to the handler once, in this order. -/
structure Lossless (stream : Reader) (s : State) : Prop where
  /-- The packets come in the order of the stream. -/
  order : s.read.map Read.packet <+: (Demuxer.run (fun _ ↦ true) stream).1
  /-- The packets of the screen reach the handler. -/
  delivered : s.read.filter Read.counts =
    s.delivered.filter Read.counts ++ s.loop.hand.filter Read.counts

/-- A lookup of a packet of the screen finds the handler. -/
def Registered (s : State) (e : Event) : Prop :=
  e = .demuxer → ∀ r, s.loop = .dispatching r → r.counts = true → s.registered = true

/-- The invariant of a capture. -/
structure Inv (stream : Reader) (s : State) : Prop where
  /-- What was read and what is left is the stream. -/
  stream : (Demuxer.run (fun _ ↦ true) stream).1 =
    s.read.map Read.packet ++ (Demuxer.run (fun _ ↦ true) s.reader).1
  /-- Nothing is lost. -/
  delivered : s.read.filter Read.counts =
    s.delivered.filter Read.counts ++ s.loop.hand.filter Read.counts
  /-- The demuxer starts after the preamble was read. -/
  idle : s.main = .peeking ∨ s.main = .starting → s.loop = .idle

variable {stream : Reader} {s t : State}

theorem Inv.lossless (h : Inv stream s) : Lossless stream s :=
  ⟨h.stream ▸ List.prefix_append _ _, h.delivered⟩

theorem inv_start (stream : Reader) : Inv stream (start stream) :=
  ⟨rfl, rfl, fun _ ↦ rfl⟩

/-- A step that reads nothing and delivers nothing. -/
theorem Inv.of_same (h : Inv stream s) (hread : t.read = s.read) (hdel : t.delivered = s.delivered)
    (hreader : t.reader.flatten = s.reader.flatten) (hhand : t.loop.hand = s.loop.hand)
    (hidle : t.main = .peeking ∨ t.main = .starting → t.loop = .idle) : Inv stream t where
  stream := by rw [h.stream, hread, Demuxer.run_congr hreader]
  delivered := by rw [hread, hdel, hhand, h.delivered]
  idle := hidle

theorem Inv.mainStep (h : Inv stream s) (hs : s.mainStep = some t) : Inv stream t := by
  rw [State.mainStep] at hs
  split at hs
  · rename_i hm
    cases hs
    exact h.of_same rfl rfl (readUpTo_spec ..) rfl fun _ ↦ h.idle (.inl hm)
  · rename_i hm
    cases hs
    refine h.of_same rfl rfl rfl ?_ fun hm ↦ by rcases hm with hm | hm <;> cases hm
    rw [h.idle (.inr hm)]
    rfl
  · cases hs
    exact h.of_same rfl rfl rfl rfl fun hm ↦ by rcases hm with hm | hm <;> cases hm
  · split at hs <;> cases hs <;>
      exact h.of_same rfl rfl rfl rfl fun hm ↦ by rcases hm with hm | hm <;> cases hm
  · cases hs

/-- The lookup of a packet. -/
theorem filter_delivered (s : State) (r : Read) (hr : s.registered = true) :
    (if s.registered ∧ r.packet.header.streamID = streamScreen then s.delivered ++ [r]
      else s.delivered).filter Read.counts =
    s.delivered.filter Read.counts ++ [r].filter Read.counts := by
  by_cases hx : r.packet.header.streamID = streamScreen
  · rw [if_pos ⟨hr, hx⟩, List.filter_append]
  · have hc : r.counts = false := by simp [Read.counts, hx]
    rw [if_neg fun h ↦ hx h.2, List.filter_cons, hc]
    exact (List.append_nil _).symm

theorem Inv.demuxerStep (h : Inv stream s) (hr : Registered s .demuxer)
    (hs : s.demuxerStep = some t) : Inv stream t := by
  have hrun : s.loop ≠ .idle → ¬(s.main = .peeking ∨ s.main = .starting) :=
    fun hne hm ↦ hne (h.idle hm)
  rw [State.demuxerStep] at hs
  split at hs
  · cases hs
  · rename_i hl
    cases hs
    refine h.of_same rfl rfl rfl ?_ fun hm ↦ absurd hm (hrun (by rw [hl]; rintro ⟨⟩))
    rw [hl]
    simp only
    split <;> rfl
  · rename_i hl
    have hm := hrun (by rw [hl]; rintro ⟨⟩)
    have hnone : s.read.filter Read.counts = s.delivered.filter Read.counts := by
      rw [h.delivered, hl]
      exact List.append_nil _
    split at hs <;> cases hs
    · rename_i p reader hp
      refine ⟨?_, ?_, fun hm' ↦ absurd hm' hm⟩
      · rw [h.stream, Demuxer.run_of_readPacket hp, List.map_append, List.append_assoc]
        rfl
      · rw [List.filter_append, hnone]
        rfl
    · refine h.of_same rfl rfl rfl ?_ fun hm' ↦ absurd hm' hm
      rw [hl]
      rfl
  · rename_i r hl
    cases hs
    refine ⟨h.stream, ?_, fun hm ↦ absurd hm (hrun (by rw [hl]; rintro ⟨⟩))⟩
    have hhand : s.loop.hand = [r] := by
      rw [hl]
      rfl
    rw [h.delivered, hhand]
    show _ = List.filter _ _ ++ []
    rw [List.append_nil]
    by_cases hc : r.counts = true
    · exact (filter_delivered s r (hr rfl r hl hc)).symm
    · rw [List.filter_cons_of_neg hc]
      split
      · rw [List.filter_append, List.filter_cons_of_neg hc]
      · exact List.append_nil _
  · cases hs

/-- **One step** keeps the invariant, unless it looks up a packet before the handler is
registered. -/
theorem Inv.step (h : Inv stream s) {e : Event} (hr : Registered s e) (hs : step s e = some t) :
    Inv stream t := by
  cases e with
  | main => exact h.mainStep hs
  | demuxer => exact h.demuxerStep hr hs
  | readFails =>
    rw [ScreenCapture.step] at hs
    split at hs <;> cases hs
    rename_i hl
    refine h.of_same rfl rfl rfl ?_ fun hm ↦ ?_
    · rw [hl]
      rfl
    · cases hl.symm.trans (h.idle hm)
  | cancel =>
    cases hs
    exact h.of_same rfl rfl rfl rfl h.idle

/-- Such a lookup loses the packet. -/
theorem Inv.lost (h : Inv stream s) {e : Event} (hr : ¬Registered s e) :
    ∃ t, ScreenCapture.step s e = some t ∧ ¬Lossless stream t := by
  rw [Registered] at hr
  push Not at hr
  obtain ⟨rfl, r, hl, hc, hreg⟩ := hr
  refine ⟨{ s with loop := .top }, ?_, fun hloss ↦ ?_⟩
  · rw [ScreenCapture.step, State.demuxerStep, hl]
    simp only
    rw [if_neg fun h ↦ hreg h.1]
  · have hdel := hloss.delivered
    have hhand : s.loop.hand = [r] := by
      rw [hl]
      rfl
    rw [show s.read.filter Read.counts = _ from h.delivered, hhand,
      List.filter_cons_of_pos hc] at hdel
    have hlen := congrArg List.length hdel
    simp only [Loop.hand, List.filter_nil, List.length_append, List.length_cons,
      List.length_nil] at hlen
    omega

/-- **Screen capture loses nothing** in a run if and only if the demuxer looks up no packet of the
screen before the handler is registered. -/
theorem screen_capture_lossless (stream : Reader) (es : List Event) :
    (∀ ms t, ms <+: es → exec step (start stream) ms = some t → Lossless stream t) ↔
      Along step Registered (start stream) es :=
  throughout_iff_along (fun _ ↦ Inv.lossless) (fun _ _ _ hr h hs ↦ h.step hr hs)
    (fun _ _ h hr ↦ h.lost hr) (inv_start stream)

/-- A config packet of the screen with one byte. -/
def screenConfig : Bytes := [0, 0, 0, 1, 0x40, 0, 0, 0, 0, 0, 0, 0, 0, 0, 0, 1, 7]

/-- The demuxer runs before `RegisterHandler`: the config packet is lost. -/
theorem screen_capture_loses_config :
    ∃ t, exec step (start [screenConfig]) [.main, .main, .demuxer, .demuxer, .demuxer] = some t ∧
      ¬Lossless [screenConfig] t := by
  have hrun : (exec step (start [screenConfig]) [.main, .main, .demuxer, .demuxer, .demuxer]).map
      (fun t ↦ ((t.read.filter Read.counts).length, t.delivered, t.loop.hand)) =
        some (1, [], []) := by
    decide
  obtain ⟨t, ht, heq⟩ := Option.map_eq_some_iff.1 hrun
  simp only [Prod.mk.injEq] at heq
  obtain ⟨hread, hdel, hhand⟩ := heq
  refine ⟨t, ht, fun h ↦ ?_⟩
  rw [h.delivered, hdel, hhand] at hread
  cases hread

end ScreenCapture

end AllRelay.Media
