import Mathlib.Algebra.Order.Ring.Int
import AllRelay.Hub.State
import AllRelay.Library.CallLog

/-!
# The PCM writer of the speaker

`PcmWriter` writes decoded buffers to an `AudioTrack`. Until as many bytes are written as playback
should start with, it asks for no more than are missing, and at the write that completes them it
calls `play()`.

The track is known by its calls. How much of a request it takes may depend on all that happened to
it before (`accept`), so that a statement about every `accept` is one about every sequence of
partial writes. What the writer may do after the calls that it made is a rule (`Allowed`).
-/

open CallLog

namespace AllRelay.Speaker

/-! ### The track -/

/-- A call of `AudioTrack.write` and what it returned. -/
structure TrackWrite where
  pcmData : Bytes
  writeOffset : ℕ
  writeSize : ℤ
  written : ℤ
deriving DecidableEq, Repr

/-- The bytes that the track took. -/
def TrackWrite.bytes (write : TrackWrite) : Bytes :=
  (write.pcmData.drop write.writeOffset).take write.written.toNat

/-- A call of the track. -/
inductive TrackCall where
  | write (write : TrackWrite)
  /-- `play()`. -/
  | play
deriving DecidableEq, Repr

/-- The writes among the calls. -/
def writes (calls : List TrackCall) : List TrackWrite :=
  calls.filterMap fun
    | .write write => some write
    | .play => none

/-- The bytes that some writes brought. -/
def total (writes : List TrackWrite) : ℤ :=
  (writes.map TrackWrite.written).sum

/-! ### The writer -/

/-- `PcmWriter`, with the calls of its track. -/
structure PcmWriter where
  calls : List TrackCall
  playbackStartThreshold : ℤ
  outputGot : ℕ
  outputBytes : ℤ
  audioTrackWrites : ℕ
  bytesWritten : ℤ
  shortWrites : ℕ
  writeErrors : ℕ
  lastWriteResult : ℤ
  lastWriteSize : ℤ
  prefilledBytes : ℤ
  playbackStarted : Bool
deriving DecidableEq, Repr

/-- The constructor, for a track that was not used. -/
def PcmWriter.new (playbackStartThreshold : ℤ) : PcmWriter where
  calls := []
  playbackStartThreshold := playbackStartThreshold
  outputGot := 0
  outputBytes := 0
  audioTrackWrites := 0
  bytesWritten := 0
  shortWrites := 0
  writeErrors := 0
  lastWriteResult := 0
  lastWriteSize := 0
  prefilledBytes := 0
  playbackStarted := false

/-- A decoded buffer with its `BufferInfo`. -/
structure OutputBuffer where
  /-- The bytes up to the limit, none for null. -/
  outputBuffer : Option Bytes
  offset : ℤ
  size : ℤ
deriving DecidableEq, Repr

/-- What `write` throws. -/
inductive Thrown where
  /-- `IOException`, with the result of the write. -/
  | writeReturned (written : ℤ)
  /-- From `position` or `get`: the range is not in the buffer. -/
  | outOfRange
deriving DecidableEq, Repr

namespace PcmWriter

variable (accept : List TrackCall → ℤ → ℤ)

/-- The size of the next request. -/
def writeSize (w : PcmWriter) (remaining : ℤ) : ℤ :=
  if w.playbackStarted then remaining
  else min remaining (w.playbackStartThreshold - w.prefilledBytes)

/-- The call of `AudioTrack.write` with its counters, and its result. -/
def writeTrack (w : PcmWriter) (pcmData : Bytes) (writeOffset : ℕ) : PcmWriter × ℤ :=
  let writeSize := w.writeSize (pcmData.length - writeOffset)
  let written := accept w.calls writeSize
  ({ w with
      calls := w.calls ++ [.write ⟨pcmData, writeOffset, writeSize, written⟩]
      audioTrackWrites := w.audioTrackWrites + 1
      lastWriteResult := written
      lastWriteSize := writeSize }, written)

/-- The count of a write that failed. -/
def countFailure (w : PcmWriter) (written : ℤ) : PcmWriter :=
  if written < 0 then { w with writeErrors := w.writeErrors + 1 }
  else { w with shortWrites := w.shortWrites + 1 }

/-- The count of a write that succeeded. -/
def countWritten (w : PcmWriter) (written : ℤ) : PcmWriter :=
  { w with
    bytesWritten := w.bytesWritten + written
    shortWrites := if written < w.lastWriteSize then w.shortWrites + 1 else w.shortWrites }

/-- The prefill of a write that succeeded, and `play()` when it is complete. -/
def prefill (w : PcmWriter) (written : ℤ) : PcmWriter :=
  if w.playbackStarted then w
  else
    let w := { w with prefilledBytes := w.prefilledBytes + written }
    if w.playbackStartThreshold ≤ w.prefilledBytes then
      { w with calls := w.calls ++ [.play], playbackStarted := true }
    else w

/-- The loop of `write`; a write that returns makes progress or ends it. -/
def writeLoop (w : PcmWriter) (pcmData : Bytes) (writeOffset : ℕ) : PcmWriter × Option Thrown :=
  if writeOffset < pcmData.length then
    let (w, written) := w.writeTrack accept pcmData writeOffset
    if written ≤ 0 then (w.countFailure written, some (.writeReturned written))
    else
      writeLoop ((w.countWritten written).prefill written) pcmData (writeOffset + written.toNat)
  else (w, none)
termination_by pcmData.length - writeOffset

/-- `write`. -/
def write (w : PcmWriter) (buffer : OutputBuffer) : PcmWriter × Option Thrown :=
  let w := { w with
    outputGot := w.outputGot + 1
    outputBytes := w.outputBytes + buffer.size }
  match buffer.outputBuffer with
  | none => (w, none)
  | some data =>
    if buffer.size ≤ 0 then (w, none)
    else if buffer.offset < 0 ∨ data.length < buffer.offset + buffer.size then
      (w, some .outOfRange)
    else w.writeLoop accept ((data.drop buffer.offset.toNat).take buffer.size.toNat) 0

/-- The playback thread writes one buffer after the other, until one throws. -/
def writeAll (w : PcmWriter) : List OutputBuffer → PcmWriter × Option Thrown
  | [] => (w, none)
  | buffer :: buffers =>
    match w.write accept buffer with
    | (w, none) => writeAll w buffers
    | (w, some thrown) => (w, some thrown)

end PcmWriter

/-! ### What the writer may do -/

/-- The PCM bytes of a buffer. -/
def OutputBuffer.pcm (buffer : OutputBuffer) : Bytes :=
  match buffer.outputBuffer with
  | none => []
  | some data => (data.drop buffer.offset.toNat).take buffer.size.toNat

/-- The decoder gives a range that is in the buffer. -/
def OutputBuffer.InRange (buffer : OutputBuffer) : Prop :=
  ∀ data ∈ buffer.outputBuffer, 0 < buffer.size →
    0 ≤ buffer.offset ∧ buffer.offset + buffer.size ≤ data.length

/-- Which calls are allowed after which, when playback starts with `threshold` bytes. -/
def Allowed (threshold : ℤ) (before : List TrackCall) : TrackCall → Prop
  | .write write =>
    0 < write.writeSize ∧
    -- before playback has started, no more than the remaining prefill
    (.play ∉ before → write.writeSize ≤ threshold - total (writes before)) ∧
    (.play ∈ before ↔ threshold ≤ total (writes before))
  | .play =>
    .play ∉ before ∧
    -- right behind the write that reaches the threshold first
    ∃ earlier write, before = earlier ++ [.write write] ∧
      total (writes earlier) < threshold ∧ threshold ≤ total (writes before)

/-- An `AudioTrack` that takes a part of each request. -/
def TakesPart (accept : List TrackCall → ℤ → ℤ) : Prop :=
  ∀ calls size, 0 < size → 1 ≤ accept calls size ∧ accept calls size ≤ size

/-- What holds of a writer that wrote `pcm`. -/
structure Written (threshold : ℤ) (pcm : Bytes) (w : PcmWriter) : Prop where
  threshold_eq : w.playbackStartThreshold = threshold
  allowed : AtEach (Allowed threshold) w.calls
  bytes : (writes w.calls).flatMap TrackWrite.bytes = pcm
  started : w.playbackStarted = true ↔ .play ∈ w.calls
  reached : .play ∈ w.calls ↔ threshold ≤ total (writes w.calls)
  prefilled : w.playbackStarted = false → w.prefilledBytes = total (writes w.calls)

/-! ### One write -/

@[simp]
theorem writes_concat_write (calls : List TrackCall) (write : TrackWrite) :
    writes (calls ++ [.write write]) = writes calls ++ [write] := by
  simp [writes]

@[simp]
theorem writes_concat_play (calls : List TrackCall) : writes (calls ++ [.play]) = writes calls := by
  simp [writes]

@[simp]
theorem total_concat (ws : List TrackWrite) (write : TrackWrite) :
    total (ws ++ [write]) = total ws + write.written := by
  simp [total]

theorem play_mem_concat_write {calls : List TrackCall} {write : TrackWrite} :
    .play ∈ calls ++ [.write write] ↔ .play ∈ calls := by
  simp

variable {accept : List TrackCall → ℤ → ℤ} {threshold : ℤ} {pcm : Bytes} {w : PcmWriter}

theorem written_new (hpos : 0 < threshold) : Written threshold [] (.new threshold) where
  threshold_eq := rfl
  allowed := atEach_nil
  bytes := rfl
  started := by simp [PcmWriter.new]
  reached := by simp [PcmWriter.new, writes, total, hpos]
  prefilled _ := rfl

/-- The next request is positive, and within what remains. -/
theorem Written.writeSize_bounds (h : Written threshold pcm w) {remaining : ℤ}
    (hremaining : 0 < remaining) :
    0 < w.writeSize remaining ∧ w.writeSize remaining ≤ remaining ∧
      (.play ∉ w.calls → w.writeSize remaining ≤ threshold - total (writes w.calls)) := by
  have hreached := h.reached
  cases hstarted : w.playbackStarted with
  | true =>
    have hplay := h.started.mp hstarted
    rw [PcmWriter.writeSize, if_pos hstarted]
    exact ⟨hremaining, le_refl _, fun hnot ↦ absurd hplay hnot⟩
  | false =>
    have hplay : .play ∉ w.calls := fun hplay ↦ by
      rw [h.started.mpr hplay] at hstarted
      cases hstarted
    -- the threshold is not reached yet, and what is missing is positive
    have hmissing := mt hreached.mpr hplay
    rw [PcmWriter.writeSize, hstarted, if_neg Bool.false_ne_true, h.threshold_eq,
      h.prefilled hstarted]
    omega

/-- **One write** keeps the rule, and brings the bytes that the track took. -/
theorem Written.writeTrack (h : Written threshold pcm w) (haccept : TakesPart accept)
    {pcmData : Bytes} {writeOffset : ℕ} (hoffset : writeOffset < pcmData.length)
    {w' : PcmWriter} {written : ℤ}
    (hwritten : w.writeTrack accept pcmData writeOffset = (w', written)) :
    0 < written ∧ writeOffset + written.toNat ≤ pcmData.length ∧
      Written threshold (pcm ++ (pcmData.drop writeOffset).take written.toNat)
        ((w'.countWritten written).prefill written) := by
  obtain ⟨hpos, hle, hprefill⟩ := h.writeSize_bounds
    (show (0 : ℤ) < pcmData.length - writeOffset by omega)
  obtain ⟨hone, htaken⟩ := haccept w.calls _ hpos
  have hreached := h.reached
  rw [PcmWriter.writeTrack] at hwritten
  cases hwritten
  refine ⟨by omega, by omega, ?_⟩
  generalize w.writeSize (pcmData.length - writeOffset) = size at hpos hle hprefill hone htaken ⊢
  generalize accept w.calls size = written at hone htaken ⊢
  obtain ⟨write, hcall⟩ : ∃ write : TrackWrite, ⟨pcmData, writeOffset, size, written⟩ = write :=
    ⟨_, rfl⟩
  have hwrite : AtEach (Allowed threshold) (w.calls ++ [.write write]) :=
    atEach_concat.mpr ⟨h.allowed, hcall ▸ ⟨hpos, hprefill, hreached⟩⟩
  have hbytes : (writes w.calls ++ [write]).flatMap TrackWrite.bytes =
      pcm ++ (pcmData.drop writeOffset).take written.toNat := by
    rw [List.flatMap_append, h.bytes, List.flatMap_singleton, ← hcall, TrackWrite.bytes]
  have htotal : total (writes w.calls ++ [write]) = total (writes w.calls) + written := by
    rw [total_concat, ← hcall]
  rw [hcall]
  cases hstarted : w.playbackStarted with
  | true =>
    have hplay := h.started.mp hstarted
    have htotal_le := hreached.mp hplay
    simp only [PcmWriter.prefill, PcmWriter.countWritten, if_true]
    refine ⟨h.threshold_eq, hwrite, ?_, ?_, ?_, fun hnot ↦ Bool.noConfusion hnot⟩
    · rwa [writes_concat_write]
    · exact iff_of_true rfl (play_mem_concat_write.mpr hplay)
    · rw [play_mem_concat_write, writes_concat_write]
      exact iff_of_true hplay (by omega)
  | false =>
    have hplay : .play ∉ w.calls := fun hplay ↦ by
      rw [h.started.mpr hplay] at hstarted
      cases hstarted
    have hmissing := mt hreached.mpr hplay
    have hprefilled := h.prefilled hstarted
    have hthreshold := h.threshold_eq
    simp only [PcmWriter.prefill, PcmWriter.countWritten, Bool.false_eq_true, if_false]
    split
    case isTrue hfull =>
      -- the write reaches the threshold
      have hallowed : Allowed threshold (w.calls ++ [.write write]) .play := by
        refine ⟨mt play_mem_concat_write.mp hplay, w.calls, write, rfl, by omega, ?_⟩
        rw [writes_concat_write]
        omega
      refine ⟨h.threshold_eq, atEach_concat.mpr ⟨hwrite, hallowed⟩, ?_, ?_, ?_,
        fun hnot ↦ Bool.noConfusion hnot⟩
      · rwa [writes_concat_play, writes_concat_write]
      · exact iff_of_true rfl (List.mem_append_right _ (List.mem_singleton_self _))
      · rw [writes_concat_play, writes_concat_write]
        exact iff_of_true (List.mem_append_right _ (List.mem_singleton_self _)) (by omega)
    case isFalse hfull =>
      refine ⟨h.threshold_eq, hwrite, ?_, ?_, ?_, fun _ ↦ ?_⟩
      · rwa [writes_concat_write]
      · exact iff_of_false (by simp) (mt play_mem_concat_write.mp hplay)
      · rw [play_mem_concat_write, writes_concat_write]
        exact iff_of_false hplay (by omega)
      · rw [writes_concat_write, hprefilled]
        exact htotal.symm

/-- The counters of `write` do not matter. -/
theorem Written.count (h : Written threshold pcm w) (outputGot : ℕ) (outputBytes : ℤ) :
    Written threshold pcm { w with outputGot, outputBytes } :=
  ⟨h.threshold_eq, h.allowed, h.bytes, h.started, h.reached, h.prefilled⟩

/-! ### Whole buffers -/

/-- **The loop** writes what is left of the buffer. -/
theorem Written.writeLoop (haccept : TakesPart accept) {pcmData : Bytes} {writeOffset : ℕ}
    (h : Written threshold (pcm ++ pcmData.take writeOffset) w)
    (hoffset : writeOffset ≤ pcmData.length) :
    ∃ w', w.writeLoop accept pcmData writeOffset = (w', none) ∧
      Written threshold (pcm ++ pcmData) w' := by
  induction hleft : pcmData.length - writeOffset using Nat.strong_induction_on
    generalizing w writeOffset with
  | h left ih =>
    rw [PcmWriter.writeLoop]
    split
    case isTrue hlt =>
      obtain ⟨⟨w', written⟩, hcall⟩ : ∃ call, w.writeTrack accept pcmData writeOffset = call :=
        ⟨_, rfl⟩
      obtain ⟨hpos, hle, hnext⟩ := h.writeTrack haccept hlt hcall
      rw [List.append_assoc, ← List.take_add] at hnext
      simp only [hcall, if_neg (Int.not_le.mpr hpos)]
      exact ih _ (by omega) hnext hle rfl
    case isFalse hge =>
      refine ⟨w, rfl, ?_⟩
      rwa [List.take_of_length_le (Nat.not_lt.mp hge)] at h

/-- **A buffer** is written whole. -/
theorem Written.write (haccept : TakesPart accept) (h : Written threshold pcm w)
    {buffer : OutputBuffer} (hbuffer : buffer.InRange) :
    ∃ w', w.write accept buffer = (w', none) ∧ Written threshold (pcm ++ buffer.pcm) w' := by
  have hcounted := h.count (w.outputGot + 1) (w.outputBytes + buffer.size)
  rw [PcmWriter.write, OutputBuffer.pcm]
  cases hdata : buffer.outputBuffer with
  | none => exact ⟨_, rfl, (List.append_nil pcm).symm ▸ hcounted⟩
  | some data =>
    by_cases hsize : buffer.size ≤ 0
    · have hnil : (data.drop buffer.offset.toNat).take buffer.size.toNat = [] := by
        rw [Int.toNat_of_nonpos hsize, List.take_zero]
      simp only [if_pos hsize, hnil, List.append_nil]
      exact ⟨_, rfl, hcounted⟩
    · have hrange := hbuffer data hdata (by omega)
      simp only [if_neg hsize, if_neg (show ¬(buffer.offset < 0 ∨
        data.length < buffer.offset + buffer.size) by omega)]
      refine Written.writeLoop haccept ?_ (Nat.zero_le _)
      rwa [List.take_zero, List.append_nil]

/-- Any sequence of buffers is written whole. -/
theorem Written.writeAll (haccept : TakesPart accept) (h : Written threshold pcm w)
    {buffers : List OutputBuffer} (hbuffers : ∀ buffer ∈ buffers, buffer.InRange) :
    ∃ w', w.writeAll accept buffers = (w', none) ∧
      Written threshold (pcm ++ buffers.flatMap OutputBuffer.pcm) w' := by
  induction buffers generalizing w pcm with
  | nil => exact ⟨w, rfl, by simpa using h⟩
  | cons buffer buffers ih =>
    obtain ⟨w₁, hrun, h₁⟩ := h.write haccept (hbuffers buffer List.mem_cons_self)
    obtain ⟨w₂, hrest, h₂⟩ := ih h₁ fun b hb ↦ hbuffers b (List.mem_cons_of_mem _ hb)
    refine ⟨w₂, ?_, ?_⟩
    · rw [PcmWriter.writeAll, hrun]
      exact hrest
    · rwa [List.flatMap_cons, ← List.append_assoc]

/-- **The prefill writer.** Whatever parts of its requests the track takes, every buffer is written
whole, once and in order, and each call of the track is one that is allowed; `play()` is called at
most once, and has been as soon as the threshold is reached. -/
theorem pcm_prefill (haccept : TakesPart accept) (hpos : 0 < threshold)
    {buffers : List OutputBuffer} (hbuffers : ∀ buffer ∈ buffers, buffer.InRange) :
    ∃ w, (PcmWriter.new threshold).writeAll accept buffers = (w, none) ∧
      (writes w.calls).flatMap TrackWrite.bytes = buffers.flatMap OutputBuffer.pcm ∧
      AtEach (Allowed threshold) w.calls ∧ w.calls.count .play ≤ 1 ∧
      (.play ∈ w.calls ↔ threshold ≤ total (writes w.calls)) := by
  obtain ⟨w, hrun, h⟩ := (written_new hpos).writeAll haccept hbuffers
  exact ⟨w, hrun, h.bytes, h.allowed, h.allowed.count_le_one fun _ hplay ↦ hplay.1, h.reached⟩

/-- Two buffers, and a track that takes at most three bytes at once. -/
theorem pcm_prefill_three : ∃ w,
    (PcmWriter.new 4).writeAll (fun _ size ↦ min size 3)
        [⟨some [1, 2, 3, 4, 5], 0, 5⟩, ⟨some [6, 7], 1, 1⟩] = (w, none) ∧
      (writes w.calls).flatMap TrackWrite.bytes = [1, 2, 3, 4, 5, 7] ∧
      AtEach (Allowed 4) w.calls ∧ w.calls.count .play ≤ 1 ∧
      (.play ∈ w.calls ↔ 4 ≤ total (writes w.calls)) := by
  refine pcm_prefill (fun _ _ _ ↦ by omega) (by decide) fun buffer hbuffer ↦ ?_
  obtain rfl | rfl : buffer = _ ∨ buffer = _ := by simpa using hbuffer
  · intro data hdata _
    cases hdata
    decide
  · intro data hdata _
    cases hdata
    decide

end AllRelay.Speaker
