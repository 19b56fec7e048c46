import AllRelay.Library.LabelledSystem
import AllRelay.Media.Packet

/-!
# Stopping a demuxer

`Demuxer.Stop` looks whether the `done` channel is closed and, if it is not, closes it, in two
steps. It is called by the handlers, on the goroutine of `Demuxer.Run`, and by the capture functions
when they are cancelled, on their own.

Two calls that both find the channel open both close it, and the second one panics
(`double_close_panics`). A channel that is closed once stops the demuxer in time: after a call has
returned, `Run` hands over at most the packet that it was reading (`stop_safe`).
-/

open ChunkedReader LabelledSystem

namespace AllRelay.Media.DemuxerStop

/-! ### The state -/

/-- Where `Run` is. -/
inductive Loop where
  /-- At the `select`. -/
  | top
  /-- Past it, before the next packet is read. -/
  | reading
  /-- In the handler of a packet. -/
  | handling
  /-- Returned. -/
  | ended
deriving DecidableEq, Repr

/-- Who calls `Stop`. -/
inductive Caller where
  /-- The handler that is running. -/
  | handler
  /-- A capture function. -/
  | capture (i : ℕ)
deriving DecidableEq, Repr

/-- The state of a demuxer. -/
structure State where
  /-- Where `Run` is. -/
  loop : Loop
  /-- `reader`. -/
  reader : Reader
  /-- The `done` channel is closed. -/
  done : Bool
  /-- The calls of `Stop` that have found the channel open and not yet closed it. -/
  pending : List Caller
  /-- A call has closed a closed channel; the process is gone. -/
  panicked : Bool
  /-- History: how often the channel was closed. -/
  closes : ℕ
  /-- History: a call of `Stop` has returned. -/
  stopped : Bool
  /-- History: when the first one did, `Run` was past its `select`. -/
  inProgress : Bool
  /-- History: the packets that were handed over since. -/
  handedAfter : List Packet
deriving DecidableEq, Repr

/-- A demuxer on a stream. -/
def init (stream : Reader) : State :=
  ⟨.top, stream, false, [], false, 0, false, false, []⟩

/-- The steps. -/
inductive Label where
  /-- `Run` looks whether it is stopped. -/
  | check
  /-- `Run` reads a packet and looks up its handler. -/
  | read
  /-- The read fails. -/
  | readFails
  /-- The handler returns. -/
  | handled
  /-- `Stop` is called, and looks at the channel. -/
  | stop (c : Caller)
  /-- A call of `Stop` closes the channel. -/
  | close (c : Caller)
deriving DecidableEq, Repr

/-! ### The steps -/

namespace State

/-- A call of `Stop` returns. -/
def stopReturns (s : State) : State :=
  if s.stopped then s else { s with stopped := true, inProgress := s.loop = .reading }

/-- A packet is handed over. -/
def hand (s : State) (p : Packet) : State :=
  { s with
    loop := .handling
    handedAfter := if s.stopped then s.handedAfter ++ [p] else s.handedAfter }

/-- A handler calls `Stop` while it runs, and everybody one call after the other. -/
def callable (s : State) (c : Caller) : Prop :=
  c ∉ s.pending ∧ (c = .handler → s.loop = .handling)

instance (s : State) (c : Caller) : Decidable (s.callable c) :=
  inferInstanceAs (Decidable (_ ∧ _))

end State

/-- One step; the streams of the handlers are those that are registered. -/
def step (registered : UInt32 → Bool) (s : State) (l : Label) : Option State :=
  if s.panicked then none
  else
    match l with
    | .check =>
      if s.loop = .top then some { s with loop := if s.done then .ended else .reading } else none
    | .read =>
      if s.loop = .reading then
        match readPacket s.reader with
        | .ok (p, reader) =>
          if registered p.header.streamID then some (State.hand { s with reader } p)
          else some { s with reader, loop := .top }
        | .error _ => some { s with loop := .ended }
      else none
    | .readFails => if s.loop = .reading then some { s with loop := .ended } else none
    | .handled =>
      if s.loop = .handling ∧ .handler ∉ s.pending then some { s with loop := .top } else none
    | .stop c =>
      if s.callable c then
        if s.done then some s.stopReturns else some { s with pending := c :: s.pending }
      else none
    | .close c =>
      if c ∈ s.pending then
        if s.done then some { s with panicked := true }
        else some (State.stopReturns
          { s with done := true, pending := s.pending.erase c, closes := s.closes + 1 })
      else none

/-! ### What is claimed -/

/-- The calls of `Stop` that are under way come to their ends without a panic. -/
def Safe (registered : UInt32 → Bool) (s : State) : Prop :=
  ∀ ks u, (∀ l ∈ ks, ∃ c, l = .close c) → exec (step registered) s ks = some u →
    u.panicked = false

/-- A call of `Stop` finds the channel open only while no other call is about to close it. -/
def oneAtATime (s : State) (l : Label) : Prop :=
  ∀ c, l = .stop c → s.panicked = false → s.callable c → s.done = false → s.pending = []

/-! ### The invariants -/

/-- What holds between any two steps. -/
structure Inv (s : State) : Prop where
  /-- The channel was closed once if it is closed. -/
  closes : s.closes = if s.done then 1 else 0
  /-- A call returns with the channel closed. -/
  done : s.stopped = true → s.done = true
  /-- Nothing counts before a call has returned. -/
  before : s.stopped = false → s.inProgress = false ∧ s.handedAfter = []
  /-- Afterwards there is one packet at most, which was being read. -/
  after : s.handedAfter.length + (if s.stopped ∧ s.loop = .reading then 1 else 0) ≤
    if s.inProgress then 1 else 0

/-- No panic, and at most one call is about to close the channel, which is open then. -/
structure Quiet (s : State) : Prop where
  panicked : s.panicked = false
  pending : s.pending.length ≤ 1
  done : s.done = true → s.pending = []

theorem inv_init (stream : Reader) : Inv (init stream) where
  closes := rfl
  done h := Bool.noConfusion h
  before _ := ⟨rfl, rfl⟩
  after := Nat.le_refl 0

theorem quiet_init (stream : Reader) : Quiet (init stream) where
  panicked := rfl
  pending := Nat.zero_le 1
  done _ := rfl

variable {registered : UInt32 → Bool} {s t : State} {l : Label} {p : Packet}

namespace Inv

/-- `Run` moves on, not into a read after a call has returned. -/
theorem move (hs : Inv s) {loop : Loop} {reader : Reader}
    (hloop : s.stopped = true → loop ≠ .reading) :
    Inv { s with loop := loop, reader := reader } where
  closes := hs.closes
  done := hs.done
  before := hs.before
  after := by
    have hno : ¬(s.stopped = true ∧ loop = .reading) := fun h ↦ hloop h.1 h.2
    show s.handedAfter.length + (if s.stopped = true ∧ loop = .reading then 1 else 0) ≤ _
    rw [if_neg hno]
    exact (Nat.le_add_right ..).trans hs.after

/-- A packet that was being read is handed over. -/
theorem hand (hs : Inv s) (hloop : s.loop = .reading) {reader : Reader} :
    Inv (State.hand { s with reader } p) where
  closes := hs.closes
  done := hs.done
  before h := by
    have hstopped : s.stopped = false := h
    have hbefore := hs.before hstopped
    refine ⟨hbefore.1, ?_⟩
    show (if s.stopped = true then s.handedAfter ++ [p] else s.handedAfter) = []
    rw [if_neg (Bool.eq_false_iff.1 hstopped)]
    exact hbefore.2
  after := by
    have hafter := hs.after
    show (if s.stopped = true then s.handedAfter ++ [p] else s.handedAfter).length +
      (if s.stopped = true ∧ Loop.handling = .reading then 1 else 0) ≤ _
    rw [if_neg (fun h : s.stopped = true ∧ Loop.handling = .reading ↦ Loop.noConfusion h.2)]
    by_cases hstopped : s.stopped = true
    · rw [if_pos ⟨hstopped, hloop⟩] at hafter
      rw [if_pos hstopped, List.length_append]
      exact hafter
    · rw [if_neg hstopped]
      exact (Nat.le_add_right ..).trans hafter

/-- A call of `Stop` returns with the channel closed. -/
theorem stopReturns (hs : Inv s) (hdone : s.done = true) : Inv s.stopReturns := by
  unfold State.stopReturns
  split
  · exact hs
  · rename_i hstopped
    obtain ⟨-, hnone⟩ := hs.before (Bool.eq_false_of_not_eq_true hstopped)
    refine ⟨hs.closes, fun _ ↦ hdone, fun h ↦ Bool.noConfusion h, ?_⟩
    show s.handedAfter.length + (if true = true ∧ s.loop = .reading then 1 else 0) ≤
      if decide (s.loop = .reading) = true then 1 else 0
    rw [hnone]
    by_cases hreading : s.loop = .reading
    · simp [hreading]
    · simp [hreading]

/-- The channel is closed. -/
theorem close (hs : Inv s) (hdone : s.done = false) (pending : List Caller) :
    Inv (State.stopReturns
      { s with done := true, pending := pending, closes := s.closes + 1 }) := by
  refine stopReturns ⟨?_, fun _ ↦ rfl, hs.before, hs.after⟩ rfl
  show s.closes + 1 = if true = true then 1 else 0
  rw [hs.closes, hdone]
  rfl

/-- Every step keeps it. -/
theorem step (hs : Inv s) (h : DemuxerStop.step registered s l = some t) : Inv t := by
  obtain ⟨-, h⟩ := Option.ite_none_left_eq_some.1 h
  match l with
  | .check =>
    obtain ⟨-, h⟩ := Option.ite_none_right_eq_some.1 h
    refine Option.some.inj h ▸ hs.move fun hstopped ↦ ?_
    rw [if_pos (hs.done hstopped)]
    exact Loop.noConfusion
  | .read =>
    obtain ⟨hreading, h⟩ := Option.ite_none_right_eq_some.1 h
    split at h
    · split at h
      · exact Option.some.inj h ▸ hs.hand hreading
      · exact Option.some.inj h ▸ hs.move fun _ ↦ Loop.noConfusion
    · exact Option.some.inj h ▸ hs.move fun _ ↦ Loop.noConfusion
  | .readFails =>
    obtain ⟨-, h⟩ := Option.ite_none_right_eq_some.1 h
    exact Option.some.inj h ▸ hs.move fun _ ↦ Loop.noConfusion
  | .handled =>
    obtain ⟨-, h⟩ := Option.ite_none_right_eq_some.1 h
    exact Option.some.inj h ▸ hs.move fun _ ↦ Loop.noConfusion
  | .stop c =>
    obtain ⟨-, h⟩ := Option.ite_none_right_eq_some.1 h
    split at h
    · rename_i hdone
      exact Option.some.inj h ▸ hs.stopReturns hdone
    · exact Option.some.inj h ▸ ⟨hs.closes, hs.done, hs.before, hs.after⟩
  | .close c =>
    obtain ⟨-, h⟩ := Option.ite_none_right_eq_some.1 h
    split at h
    · exact Option.some.inj h ▸ ⟨hs.closes, hs.done, hs.before, hs.after⟩
    · rename_i hdone
      exact Option.some.inj h ▸ hs.close (Bool.eq_false_of_not_eq_true hdone) _

/-- Every run keeps it. -/
theorem exec {stream : Reader} {ls : List Label}
    (h : exec (DemuxerStop.step registered) (init stream) ls = some s) : Inv s :=
  exec_invariant (fun _ _ _ hs h ↦ hs.step h) (inv_init stream) h

/-- Nothing but the packet that was being read is handed over after a call has returned. -/
theorem handedAfter_le (hs : Inv s) :
    s.handedAfter.length ≤ 1 ∧ (s.handedAfter ≠ [] → s.inProgress = true) := by
  have hafter := (Nat.le_add_right ..).trans hs.after
  by_cases hprogress : s.inProgress = true
  · rw [if_pos hprogress] at hafter
    exact ⟨hafter, fun _ ↦ hprogress⟩
  · rw [if_neg hprogress, Nat.le_zero] at hafter
    exact ⟨by omega, fun hne ↦ absurd (List.eq_nil_of_length_eq_zero hafter) hne⟩

theorem closes_le_one (hs : Inv s) : s.closes ≤ 1 := by
  rw [hs.closes]
  split
  · exact le_refl 1
  · exact Nat.zero_le 1

end Inv

namespace Quiet

/-- A call that returns changes nothing here. -/
theorem stopReturns (hs : Quiet s) : Quiet s.stopReturns := by
  unfold State.stopReturns
  split
  · exact hs
  · exact ⟨hs.panicked, hs.pending, hs.done⟩

/-- The only call that is about to close the channel closes it. -/
theorem close (hs : Quiet s) {c : Caller} (h : DemuxerStop.step registered s (.close c) = some t) :
    Quiet t := by
  obtain ⟨-, h⟩ := Option.ite_none_left_eq_some.1 h
  obtain ⟨hpending, h⟩ := Option.ite_none_right_eq_some.1 h
  have hclosing : s.pending = [c] := by
    obtain ⟨d, hd⟩ := List.length_eq_one_iff.1
      (le_antisymm hs.pending (List.length_pos_of_mem hpending))
    rw [hd] at hpending
    rw [hd, List.mem_singleton.1 hpending]
  split at h
  · rename_i hdone
    rw [hs.done hdone] at hclosing
    exact absurd hclosing.symm (List.cons_ne_nil _ _)
  · refine Option.some.inj h ▸ stopReturns ⟨hs.panicked, ?_, fun _ ↦ ?_⟩
    · exact (List.length_erase_le ..).trans hs.pending
    · show s.pending.erase c = []
      rw [hclosing]
      exact List.erase_cons_head ..

/-- Every step keeps it in which a call finds the channel open only alone. -/
theorem step (hs : Quiet s) (hl : oneAtATime s l)
    (h : DemuxerStop.step registered s l = some t) : Quiet t := by
  match l with
  | .close c => exact hs.close h
  | .check | .readFails | .handled =>
    obtain ⟨-, h⟩ := Option.ite_none_left_eq_some.1 h
    obtain ⟨-, h⟩ := Option.ite_none_right_eq_some.1 h
    exact Option.some.inj h ▸ ⟨hs.panicked, hs.pending, hs.done⟩
  | .read =>
    obtain ⟨-, h⟩ := Option.ite_none_left_eq_some.1 h
    obtain ⟨-, h⟩ := Option.ite_none_right_eq_some.1 h
    split at h
    · split at h <;> exact Option.some.inj h ▸ ⟨hs.panicked, hs.pending, hs.done⟩
    · exact Option.some.inj h ▸ ⟨hs.panicked, hs.pending, hs.done⟩
  | .stop c =>
    obtain ⟨-, h⟩ := Option.ite_none_left_eq_some.1 h
    obtain ⟨hcallable, h⟩ := Option.ite_none_right_eq_some.1 h
    split at h
    · exact Option.some.inj h ▸ hs.stopReturns
    · rename_i hdone
      have hnone : s.pending = [] :=
        hl c rfl hs.panicked hcallable (Bool.eq_false_of_not_eq_true hdone)
      refine Option.some.inj h ▸ ⟨hs.panicked, ?_, fun h ↦ absurd h hdone⟩
      show (c :: s.pending).length ≤ 1
      rw [hnone]
      exact le_refl 1

/-- The calls under way end without a panic. -/
theorem safe (hs : Quiet s) : Safe registered s := by
  intro ks u hks hu
  refine (exec_invariant_along (C := fun _ l ↦ ∃ c, l = .close c) ?_ (along_of_forall_mem hks) hs
    hu).panicked
  rintro s l t ⟨c, rfl⟩ hs h
  exact hs.close h

end Quiet

/-! ### Every run -/

/-- Two calls that are about to close the channel make the process panic. -/
theorem not_safe_of_two {c d : Caller} (hpanicked : s.panicked = false) (hdone : s.done = false)
    (hc : c ∈ s.pending) (hd : d ∈ s.pending) (hne : d ≠ c) : ¬Safe registered s := by
  intro hsafe
  have hfirst : ∃ t, step registered s (.close c) = some t ∧ t.panicked = false ∧ t.done = true ∧
      d ∈ t.pending := by
    refine ⟨State.stopReturns { s with
      done := true, pending := s.pending.erase c, closes := s.closes + 1 }, ?_, ?_⟩
    · simp only [step, hpanicked, hc, hdone, if_true, Bool.false_eq_true, if_false]
    · have hleft : d ∈ s.pending.erase c := (List.mem_erase_of_ne hne).2 hd
      unfold State.stopReturns
      split <;> exact ⟨hpanicked, rfl, hleft⟩
  obtain ⟨t, ht, htpanicked, htdone, htd⟩ := hfirst
  have hsecond : step registered t (.close d) = some { t with panicked := true } := by
    simp only [step, htpanicked, htd, htdone, if_true, Bool.false_eq_true, if_false]
  have hrun : exec (step registered) s [.close c, .close d] = some { t with panicked := true } :=
    exec_cons_eq_some_iff.2 ⟨t, ht, exec_cons_eq_some_iff.2 ⟨_, hsecond, rfl⟩⟩
  have hcloses : ∀ l ∈ [Label.close c, Label.close d], ∃ c, l = .close c := by
    simp
  exact Bool.noConfusion (hsafe _ _ hcloses hrun)

/-- A call that finds the channel open beside another one leads to two of them. -/
theorem not_safe_of_not_oneAtATime (hl : ¬oneAtATime s l) :
    ∃ t, step registered s l = some t ∧ ¬Safe registered t := by
  simp only [oneAtATime, Classical.not_forall] at hl
  obtain ⟨c, rfl, hpanicked, hcallable, hdone, hpending⟩ := hl
  obtain ⟨d, hd⟩ := List.exists_mem_of_ne_nil _ hpending
  refine ⟨{ s with pending := c :: s.pending }, ?_, ?_⟩
  · simp only [step, hpanicked, hcallable, hdone, if_true, Bool.false_eq_true, if_false]
  · have hne : d ≠ c := by
      rintro rfl
      exact hcallable.1 hd
    exact not_safe_of_two hpanicked hdone List.mem_cons_self (List.mem_cons_of_mem _ hd) hne

/-- **Stopping is safe**, whatever the schedule, exactly when a call finds the channel open only
while no other call is about to close it. In any case the channel is closed at most once, and after
a call has returned at most one packet is handed over, which was being read. -/
theorem stop_safe (registered : UInt32 → Bool) (stream : Reader) (ls : List Label) :
    ((∀ ms t, ms <+: ls → exec (step registered) (init stream) ms = some t → Safe registered t) ↔
        Along (step registered) oneAtATime (init stream) ls) ∧
      ∀ s, exec (step registered) (init stream) ls = some s →
        s.closes ≤ 1 ∧ s.handedAfter.length ≤ 1 ∧ (s.handedAfter ≠ [] → s.inProgress = true) := by
  constructor
  · exact throughout_iff_along (I := Quiet) (fun _ hs ↦ hs.safe)
      (fun _ _ _ hl hs h ↦ hs.step hl h) (fun _ _ _ hl ↦ not_safe_of_not_oneAtATime hl)
      (quiet_init stream)
  · intro s h
    have hs := Inv.exec h
    exact ⟨hs.closes_le_one, hs.handedAfter_le⟩

/-- A packet of the microphone. -/
def micPacket : Bytes :=
  [0, 0, 0, 3, 0, 0, 0, 0, 0, 0, 0, 0, 0, 0, 0, 1, 7]

/-- Its handler calls `Stop` while the capture function is cancelled, and both find the channel
open. -/
def bothStop : List Label :=
  [.check, .read, .stop .handler, .stop (.capture 0), .close .handler, .close (.capture 0)]

/-- **A closed channel is closed**: the process panics. -/
theorem double_close_panics :
    ¬∀ (registered : UInt32 → Bool) (stream : Reader) (ls : List Label) (s : State),
      exec (step registered) (init stream) ls = some s → s.panicked = false := by
  intro hall
  have hpanic := hall (· = 3) [micPacket] bothStop _ rfl
  exact Bool.noConfusion hpanic

end AllRelay.Media.DemuxerStop
