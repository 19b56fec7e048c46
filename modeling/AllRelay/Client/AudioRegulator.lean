import AllRelay.Client.AudioBuf

/-!
# The audio regulator of the desktop client

`sc_audio_regulator_push` writes the samples of a frame into the audio buffer, and
`sc_audio_regulator_pull` reads what the sound card plays next. The calls of `sc_audiobuf_read` are
made under a mutex, because the pushing thread reads too: it drops old samples where the new ones do
not fit, and where too many are buffered. `AudioRegulator.step` is one step of one of the two
threads, up to the next load, store or change of the mutex.

The resampler and the measurement of the average buffering are left out; a call is given the samples
that the resampler returned.
-/

namespace AllRelay.Client

open LabelledSystem

/-- `sc_audiobuf_capacity`. -/
def AudioBuf.capacity {α : Type*} (b : AudioBuf α) : ℕ := b.allocSize - 1

/-- The calls of `sc_audiobuf_write` in `sc_audio_regulator_push`. -/
inductive WriteCall where
  /-- Without the mutex. -/
  | first
  /-- The retry with the mutex. -/
  | locked
  /-- After old samples were dropped. -/
  | last
deriving DecidableEq, Repr

/-- Where a thread is in `sc_audio_regulator_push`, with the samples that are still to be
written. -/
inductive PushPhase (α : Type*) where
  /-- It makes no call. -/
  | idle
  /-- It calls `sc_audiobuf_write_silence`. -/
  | fill (count : ℕ) (samples : List α)
  /-- It is in `sc_audiobuf_write_silence`. -/
  | filling (samples : List α)
  /-- It calls `sc_audiobuf_write`. -/
  | write (call : WriteCall) (rest : List α)
  /-- It is in `sc_audiobuf_write`. -/
  | writing (call : WriteCall) (rest : List α)
  /-- It locks the mutex to write the rest. -/
  | lock (rest : List α)
  /-- It calls `sc_audiobuf_read` to drop as many old samples. -/
  | drop (rest : List α)
  /-- It is in `sc_audiobuf_read`. -/
  | dropping (rest : List α)
  /-- It unlocks the mutex. -/
  | unlock (rest : List α)
  /-- It reads `played`. -/
  | limit
  /-- It compares `can_read` with `max_buffered_samples`. -/
  | check (max : ℕ)
  /-- It locks the mutex to compare again. -/
  | lockCheck (max : ℕ)
  /-- It compares again. -/
  | recheck (max : ℕ)
  /-- It is in `sc_audiobuf_read` to skip so many samples. -/
  | skipping (count : ℕ)
  /-- It unlocks the mutex. -/
  | unlockCheck
deriving DecidableEq, Repr

/-- Where a thread is in `sc_audio_regulator_pull`. -/
inductive PullPhase (α : Type*) where
  /-- It makes no call. -/
  | idle
  /-- It locks the mutex. -/
  | lock (count : ℕ)
  /-- It waits for `target_buffering` samples before the first ones are played. -/
  | check (count : ℕ)
  /-- It calls `sc_audiobuf_read`. -/
  | read (count : ℕ)
  /-- It is in `sc_audiobuf_read`. -/
  | reading (count : ℕ)
  /-- It unlocks the mutex, with silence to play. -/
  | unlockSilent (count : ℕ)
  /-- It unlocks the mutex. -/
  | unlock (count : ℕ) (samples : List α)
  /-- It fills up with silence. -/
  | fill (count : ℕ) (samples : List α)
deriving DecidableEq, Repr

/-- `struct sc_audio_regulator`, with its two threads. -/
structure AudioRegulator (α : Type*) where
  /-- `buf`, with the calls that use it. -/
  stream : AudioStream α
  /-- `target_buffering`. -/
  targetBuffering : ℕ
  /-- `sample_rate`. -/
  sampleRate : ℕ
  /-- `played`. -/
  played : Bool
  /-- The thread that pushes. -/
  push : PushPhase α
  /-- The thread that pulls. -/
  pull : PullPhase α
  /-- The samples that were to be written, with the silence between them. -/
  pushed : List α
  /-- What the player was given; nothing for silence. -/
  output : List (Option α)
deriving DecidableEq, Repr

/-- A step of one of the threads. -/
inductive RegulatorStep (α : Type*) where
  /-- `sc_audio_regulator_push` is called, with the samples that the resampler returns. -/
  | call (samples : List α) (inputSamples : ℕ) (discontinuity : Bool)
  /-- The call goes on. -/
  | push
  /-- `sc_audio_regulator_pull` is called. -/
  | request (outSamples : ℕ)
  /-- The call goes on. -/
  | pull
deriving DecidableEq, Repr

namespace PushPhase

variable {α : Type*}

/-- The thread has the mutex. -/
def holds : PushPhase α → Bool
  | write .locked _ | writing .locked _ | drop _ | dropping _ | unlock _ => true
  | recheck _ | skipping _ | unlockCheck => true
  | _ => false

/-- The thread is in `sc_audiobuf_read`. -/
def reads : PushPhase α → Bool
  | dropping _ | skipping _ => true
  | _ => false

/-- The thread waits for the mutex. -/
def waits : PushPhase α → Bool
  | lock _ | lockCheck _ => true
  | _ => false

/-- The samples of the frame that are still to be written. -/
def rest : PushPhase α → List α
  | write _ rest | writing _ rest | lock rest | drop rest | dropping rest | unlock rest => rest
  | _ => []

/-- After a call of `sc_audiobuf_write` that left such a rest. The last one must leave none. -/
def afterWrite : WriteCall → List α → Option (PushPhase α)
  | .first, [] => some .limit
  | .first, rest => some (.lock rest)
  | .locked, [] => some (.unlock [])
  | .locked, rest => some (.drop rest)
  | .last, [] => some .limit
  | .last, _ => none

end PushPhase

namespace PullPhase

variable {α : Type*}

/-- The thread has the mutex. -/
def holds : PullPhase α → Bool
  | check _ | read _ | reading _ | unlockSilent _ | unlock _ _ => true
  | _ => false

/-- The thread is in `sc_audiobuf_read`. -/
def reads : PullPhase α → Bool
  | reading _ => true
  | _ => false

/-- The thread waits for the mutex. -/
def waits : PullPhase α → Bool
  | lock _ => true
  | _ => false

/-- The samples that were read and not yet given to the player. -/
def samples : PullPhase α → List α
  | unlock _ samples | fill _ samples => samples
  | _ => []

end PullPhase

namespace AudioRegulator

variable {α : Type*} (silence : α)

/-- `sc_audio_regulator_init`. -/
def init (targetBuffering sampleRate : ℕ) (memory : Bool) : Option (AudioRegulator α) :=
  (AudioStream.init (uint32 (targetBuffering + sampleRate)) memory).map fun stream ↦
    ⟨stream, targetBuffering, sampleRate, false, .idle, .idle, [], []⟩

/-- `max_buffered_samples`. -/
def maxBufferedSamples (s : AudioRegulator α) : ℕ :=
  if s.played then
    uint32 (uint32 (s.targetBuffering * 11) / 10 + uint32 (60 * s.sampleRate) / 1000 : ℕ)
  else uint32 (s.targetBuffering + uint32 (10 * s.sampleRate) / 1000 : ℕ)

/-- The samples are written next. -/
def writeFirst (s : AudioRegulator α) (samples : List α) : AudioRegulator α :=
  { s with push := .write .first samples, pushed := s.pushed ++ samples }

/-- `sc_audio_regulator_push` up to the first write. -/
def startPush (s : AudioRegulator α) (samples : List α) (inputSamples : ℕ)
    (discontinuity : Bool) : Option (AudioRegulator α) :=
  match s.push with
  | .idle =>
    let samples := samples.drop (samples.length - s.stream.buf.capacity)
    let canRead := s.stream.buf.canRead
    if discontinuity ∧ uint32 (inputSamples + canRead) < s.targetBuffering then
      some { s with push := .fill (uint32 (s.targetBuffering - canRead - inputSamples)) samples }
    else some (s.writeFirst samples)
  | _ => none

/-- The next step of `sc_audio_regulator_push`. It fails with an assertion, and without the mutex
that it waits for. -/
def stepPush (s : AudioRegulator α) : Option (AudioRegulator α) :=
  match s.push with
  | .idle => none
  | .fill count samples =>
    (s.stream.step silence (.writeSilence count)).map fun stream ↦
      if s.stream.buf.canWrite = 0 then s.writeFirst samples
      else { s with stream := stream, push := .filling samples }
  | .filling samples =>
    match s.stream.writer with
    | .idle => none
    | .writing _ filled copied =>
      if copied = filled.length then
        (s.stream.step silence .publish).map fun stream ↦
          { s with stream := stream, pushed := s.pushed ++ filled }.writeFirst samples
      else (s.stream.step silence .copyIn).map fun stream ↦ { s with stream := stream }
  | .write call rest =>
    (s.stream.step silence (.write rest)).bind fun stream ↦
      if s.stream.buf.canWrite = 0 then
        (PushPhase.afterWrite call rest).map fun push ↦ { s with push := push }
      else some { s with stream := stream, push := .writing call rest }
  | .writing call rest =>
    match s.stream.writer with
    | .idle => none
    | .writing _ samples copied =>
      if copied = samples.length then
        (s.stream.step silence .publish).bind fun stream ↦
          (PushPhase.afterWrite call (rest.drop samples.length)).map fun push ↦
            { s with stream := stream, push := push }
      else (s.stream.step silence .copyIn).map fun stream ↦ { s with stream := stream }
  | .lock rest => if s.pull.holds then none else some { s with push := .write .locked rest }
  | .drop rest =>
    -- `assert(skipped_samples == remaining)`
    if s.stream.buf.canRead = 0 then none
    else
      (s.stream.step silence (.read rest.length true)).map fun stream ↦
        { s with stream := stream, push := .dropping rest }
  | .dropping rest =>
    match s.stream.reader with
    | .idle => none
    | .reading _ skipped _ =>
      if skipped = rest.length then
        (s.stream.step silence .release).map fun stream ↦
          { s with stream := stream, push := .unlock rest }
      else none
  | .unlock [] => some { s with push := .limit }
  | .unlock rest => some { s with push := .write .last rest }
  | .limit => some { s with push := .check s.maxBufferedSamples }
  | .check max =>
    some { s with push := if max < s.stream.buf.canRead then .lockCheck max else .idle }
  | .lockCheck max => if s.pull.holds then none else some { s with push := .recheck max }
  | .recheck max =>
    if max < s.stream.buf.canRead then
      (s.stream.step silence (.read (s.stream.buf.canRead - max) true)).map fun stream ↦
        { s with stream := stream, push := .skipping (s.stream.buf.canRead - max) }
    else some { s with push := .unlockCheck }
  | .skipping count =>
    match s.stream.reader with
    | .idle => none
    | .reading _ r _ =>
      -- `assert(r == skip_samples)`
      if r = count then
        (s.stream.step silence .release).map fun stream ↦
          { s with stream := stream, push := .unlockCheck }
      else none
  | .unlockCheck => some { s with push := .idle }

/-- The next step of `sc_audio_regulator_pull`. It fails without the mutex that it waits for. -/
def stepPull (s : AudioRegulator α) : Option (AudioRegulator α) :=
  match s.pull with
  | .idle => none
  | .lock count => if s.push.holds then none else some { s with pull := .check count }
  | .check count =>
    if !s.played ∧ s.stream.buf.canRead < s.targetBuffering then
      some { s with pull := .unlockSilent count }
    else some { s with pull := .read count }
  | .read count =>
    (s.stream.step silence (.read count false)).map fun stream ↦
      if s.stream.buf.canRead = 0 then { s with pull := .unlock count [] }
      else { s with stream := stream, pull := .reading count }
  | .reading count =>
    match s.stream.reader with
    | .reading _ n (some samples) =>
      if samples.length = n then
        (s.stream.step silence .release).map fun stream ↦
          { s with stream := stream, pull := .unlock count samples }
      else (s.stream.step silence .copyOut).map fun stream ↦ { s with stream := stream }
    | _ => none
  | .unlockSilent count =>
    some { s with pull := .idle, output := s.output ++ List.replicate count none }
  | .unlock count samples => some { s with pull := .fill count samples }
  | .fill count samples =>
    some { s with
      played := true
      pull := .idle
      output := s.output ++ (samples.map some ++ List.replicate (count - samples.length) none) }

/-- One step of a thread. The player asks for at least one sample. -/
def step (s : AudioRegulator α) : RegulatorStep α → Option (AudioRegulator α)
  | .call samples inputSamples discontinuity => s.startPush samples inputSamples discontinuity
  | .push => s.stepPush silence
  | .request outSamples =>
    match s.pull with
    | .idle => if outSamples = 0 then none else some { s with pull := .lock outSamples }
    | _ => none
  | .pull => s.stepPull silence

end AudioRegulator

/-! ### The phases -/

/-- What holds of the buffer in a phase of the thread that pushes. -/
def PushPhase.Ok {α : Type*} (capacity : ℕ) (st : AudioStream α) : PushPhase α → Prop
  | fill _ samples => st.writer = .idle ∧ samples.length ≤ capacity
  | filling samples => st.writer ≠ .idle ∧ samples.length ≤ capacity
  | write call rest =>
    st.writer = .idle ∧ rest.length ≤ capacity ∧
      (call = .last → st.sent.length + rest.length ≤ st.received.length + capacity)
  | writing call rest =>
    rest.length ≤ capacity ∧ ∃ head samples copied, st.writer = .writing head samples copied ∧
      samples <+: rest ∧ (call = .last → samples = rest) ∧
      (call = .locked → samples ≠ rest →
        st.sent.length + samples.length = st.received.length + capacity)
  | lock rest => st.writer = .idle ∧ rest.length ≤ capacity
  | drop rest =>
    st.writer = .idle ∧ rest.length ≤ capacity ∧ rest ≠ [] ∧
      st.sent.length = st.received.length + capacity
  | dropping rest =>
    st.writer = .idle ∧ rest.length ≤ capacity ∧ ∃ tail, st.reader = .reading tail rest.length none
  | unlock rest =>
    st.writer = .idle ∧ rest.length ≤ capacity ∧
      st.sent.length + rest.length ≤ st.received.length + capacity
  | skipping count => st.writer = .idle ∧ ∃ tail, st.reader = .reading tail count none
  | _ => st.writer = .idle

/-- What holds of the buffer in a phase of the thread that pulls. -/
def PullPhase.Ok {α : Type*} (st : AudioStream α) : PullPhase α → Prop
  | lock count | check count | read count => count ≠ 0
  | reading _ => ∃ tail n out, st.reader = .reading tail n (some out)
  | _ => True

section

variable {α : Type*} {capacity : ℕ} {st st' : AudioStream α}

theorem PushPhase.holds_of_reads {p : PushPhase α} (h : p.reads = true) : p.holds = true := by
  cases p with
  | dropping => rfl
  | skipping => rfl
  | _ => cases h

theorem PullPhase.holds_of_reads {p : PullPhase α} (h : p.reads = true) : p.holds = true := by
  cases p with
  | reading => rfl
  | _ => cases h

theorem PushPhase.not_holds_of_waits {p : PushPhase α} (h : p.waits = true) :
    p.holds = false := by
  cases p with
  | lock | lockCheck => rfl
  | _ => cases h

theorem PullPhase.not_holds_of_waits {p : PullPhase α} (h : p.waits = true) :
    p.holds = false := by
  cases p with
  | lock => rfl
  | _ => cases h

/-- The other thread may read while the thread that pushes has not the mutex. -/
theorem PushPhase.Ok.mono {p : PushPhase α} (h : p.Ok capacity st) (hholds : p.holds = false)
    (hwriter : st'.writer = st.writer) (hsent : st'.sent = st.sent)
    (hreceived : st.received.length ≤ st'.received.length) : p.Ok capacity st' := by
  cases p with
  | write call rest =>
    obtain ⟨hidle, hrest, hlast⟩ := h
    refine ⟨hwriter.trans hidle, hrest, fun hcall ↦ ?_⟩
    have := hlast hcall
    rw [hsent]
    omega
  | writing call rest =>
    obtain ⟨hrest, head, samples, copied, heq, hpre, hlast, -⟩ := h
    refine ⟨hrest, head, samples, copied, hwriter.trans heq, hpre, hlast, fun hcall ↦ ?_⟩
    rw [hcall] at hholds
    cases hholds
  | fill => exact ⟨hwriter.trans h.1, h.2⟩
  | filling => exact ⟨fun heq ↦ h.1 (hwriter.symm.trans heq), h.2⟩
  | lock rest => exact ⟨hwriter.trans h.1, h.2⟩
  | drop | dropping | unlock | recheck | skipping | unlockCheck => cases hholds
  | idle | limit | check | lockCheck => exact hwriter.trans h

/-- The thread that pulls is not in `sc_audiobuf_read` without the mutex. -/
theorem PullPhase.Ok.of_not_holds {p : PullPhase α} (h : p.Ok st) (hholds : p.holds = false) :
    p.Ok st' := by
  cases p with
  | lock => exact h
  | check | read | reading => cases hholds
  | idle | unlockSilent | unlock | fill => trivial

theorem PullPhase.Ok.congr {p : PullPhase α} (h : p.Ok st) (hreader : st'.reader = st.reader) :
    p.Ok st' := by
  cases p with
  | reading =>
    obtain ⟨tail, n, out, heq⟩ := h
    exact ⟨tail, n, out, hreader.trans heq⟩
  | lock | check | read => exact h
  | idle | unlockSilent | unlock | fill => trivial

/-- What comes after a call of `sc_audiobuf_write`: the last one leaves nothing to write, and the
one under the mutex leaves a rest only if the buffer is full. -/
theorem PushPhase.afterWrite_spec (hst : st.Inv capacity) (hidle : st.writer = .idle)
    (call : WriteCall) (rest : List α) (hrest : rest.length ≤ capacity)
    (hlast : call = .last → rest = [])
    (hlocked : call = .locked → rest ≠ [] → st.sent.length = st.received.length + capacity) :
    ∃ p, PushPhase.afterWrite call rest = some p ∧ p.Ok capacity st ∧ p.reads = false ∧
      p.rest = rest ∧ (p.holds = true → call = .locked) := by
  have hfits := hst.fits
  rw [hidle] at hfits
  cases rest with
  | nil =>
    cases call with
    | first => exact ⟨_, rfl, hidle, rfl, rfl, fun h ↦ absurd h Bool.false_ne_true⟩
    | locked => exact ⟨_, rfl, ⟨hidle, hrest, hfits⟩, rfl, rfl, fun _ ↦ rfl⟩
    | last => exact ⟨_, rfl, hidle, rfl, rfl, fun h ↦ absurd h Bool.false_ne_true⟩
  | cons a rest =>
    cases call with
    | first => exact ⟨_, rfl, ⟨hidle, hrest⟩, rfl, rfl, fun h ↦ absurd h Bool.false_ne_true⟩
    | locked =>
      have hne : a :: rest ≠ [] := List.cons_ne_nil _ _
      exact ⟨_, rfl, ⟨hidle, hrest, hne, hlocked rfl hne⟩, rfl, rfl, fun _ ↦ rfl⟩
    | last => exact absurd (hlast rfl) (List.cons_ne_nil _ _)

end

end AllRelay.Client
