import AllRelay.Client.AudioRegulator
import Mathlib.Data.List.ReduceOption

/-!
# What the desktop client plays

The thread that pushes and the thread that pulls, in every run. `AudioRegulator.Inv` says what the
phases of the two threads mean for the buffer between them. A push and a pull that are not over can
go on, or wait for the mutex (`Inv.stepPush`, `Inv.stepPull`), so that no assertion of the regulator
fails, and with every step there is less to do (`calls_end`). The player gets what is pushed, in
this order (`plays_what_is_pushed`).
-/

namespace AllRelay.Client

open LabelledSystem

/-- How many samples are still to be copied. -/
def AudioWriter.left {α : Type*} : AudioWriter α → ℕ
  | .idle => 0
  | .writing _ samples copied => samples.length - copied

/-- How many samples are still to be copied. -/
def AudioReader.left {α : Type*} : AudioReader α → ℕ
  | .reading _ count (some samples) => count - samples.length
  | _ => 0

/-- How many steps follow a call of `sc_audiobuf_write`, besides a copy of the rest. -/
def WriteCall.after : WriteCall → ℕ
  | .first => 14
  | .locked => 11
  | .last => 6

/-- How many steps the thread that pushes takes at most before its call is over. -/
def PushPhase.todo {α : Type*} (capacity : ℕ) (w : AudioWriter α) : PushPhase α → ℕ
  | idle => 0
  | fill _ samples => capacity + samples.length + 18
  | filling samples => w.left + samples.length + 17
  | write call rest => rest.length + call.after + 2
  | writing call rest => w.left + (rest.length - w.samples.length) + call.after + 1
  | lock rest => rest.length + 14
  | drop rest => rest.length + 11
  | dropping rest => rest.length + 10
  | unlock rest => rest.length + 9
  | limit => 6
  | check _ => 5
  | lockCheck _ => 4
  | recheck _ => 3
  | skipping _ => 2
  | unlockCheck => 1

/-- How many steps the thread that pulls takes at most before its call is over. -/
def PullPhase.todo {α : Type*} (capacity : ℕ) (r : AudioReader α) : PullPhase α → ℕ
  | idle => 0
  | lock _ => capacity + 6
  | check _ => capacity + 5
  | read _ => capacity + 4
  | reading _ => r.left + 3
  | unlockSilent _ => 1
  | unlock _ _ => 2
  | fill _ _ => 1

/-- A push begins. -/
def RegulatorStep.isCall {α : Type*} : RegulatorStep α → Bool
  | call _ _ _ => true
  | _ => false

/-- A push goes on. -/
def RegulatorStep.isPush {α : Type*} : RegulatorStep α → Bool
  | push => true
  | _ => false

/-- A pull begins. -/
def RegulatorStep.isRequest {α : Type*} : RegulatorStep α → Bool
  | request _ => true
  | _ => false

/-- A pull goes on. -/
def RegulatorStep.isPull {α : Type*} : RegulatorStep α → Bool
  | pull => true
  | _ => false

theorem AudioWriter.left_le {α : Type*} (w : AudioWriter α) : w.left ≤ w.samples.length := by
  cases w with
  | idle => exact le_rfl
  | writing head samples copied => exact Nat.sub_le _ _

theorem WriteCall.after_le (call : WriteCall) : call.after ≤ 14 := by
  cases call <;> decide

theorem PushPhase.todo_afterWrite {α : Type*} {call : WriteCall} {rest : List α} {p : PushPhase α}
    (capacity : ℕ) (w : AudioWriter α) (h : PushPhase.afterWrite call rest = some p) :
    p.todo capacity w ≤ rest.length + call.after := by
  cases call with
  | first =>
    cases rest with
    | nil =>
      obtain rfl := Option.some.inj h
      exact (by decide : 6 ≤ 14)
    | cons a rest =>
      obtain rfl := Option.some.inj h
      exact le_rfl
  | locked =>
    cases rest with
    | nil =>
      obtain rfl := Option.some.inj h
      exact (by decide : 9 ≤ 11)
    | cons a rest =>
      obtain rfl := Option.some.inj h
      exact le_rfl
  | last =>
    cases rest with
    | nil =>
      obtain rfl := Option.some.inj h
      exact le_rfl
    | cons a rest => cases h

namespace AudioRegulator

variable {α : Type*} {silence : α} {capacity : ℕ} {s t : AudioRegulator α}

/-- **The invariant**: the two threads exclude each other, each is where its phase says, the samples
of a frame are sent or still to be written, and the player got what was received. -/
structure Inv (capacity : ℕ) (s : AudioRegulator α) : Prop where
  /-- The invariant of the buffer. -/
  stream : s.stream.Inv capacity
  /-- One of the threads has the mutex. -/
  mutex : s.push.holds = true → s.pull.holds = false
  /-- The buffer and the thread that pushes. -/
  push : s.push.Ok capacity s.stream
  /-- The buffer and the thread that pulls. -/
  pull : s.pull.Ok s.stream
  /-- Nobody else reads. -/
  reader : s.push.reads = false → s.pull.reads = false → s.stream.reader = .idle
  /-- What is pushed is sent. -/
  pushed : s.stream.sent ++ s.push.rest = s.pushed
  /-- What is received is played. -/
  output : s.output.reduceOption ++ s.pull.samples = s.stream.received.reduceOption

/-- What a step of the thread that pushes does. -/
structure Pushed (capacity : ℕ) (s t : AudioRegulator α) : Prop where
  /-- The invariant. -/
  inv : t.Inv capacity
  /-- There is less to do. -/
  todo : t.push.todo capacity t.stream.writer < s.push.todo capacity s.stream.writer
  /-- The other thread is where it was. -/
  pull : t.pull = s.pull
  /-- What the other thread reads goes on. -/
  reader : s.pull.reads = true → t.stream.reader = s.stream.reader

/-- What a step of the thread that pulls does. -/
structure Pulled (capacity : ℕ) (s t : AudioRegulator α) : Prop where
  /-- The invariant. -/
  inv : t.Inv capacity
  /-- There is less to do. -/
  todo : t.pull.todo capacity t.stream.reader < s.pull.todo capacity s.stream.reader
  /-- The other thread is where it was. -/
  push : t.push = s.push
  /-- What the other thread writes goes on. -/
  writer : t.stream.writer = s.stream.writer

/-! ### The thread that pushes -/

/-- A step that concerns the writer or the mutex. -/
theorem Inv.of_writer (h : s.Inv capacity) {stream : AudioStream α} {push : PushPhase α}
    {pushed : List α} (hstream : stream.Inv capacity) (hreader : stream.reader = s.stream.reader)
    (hreceived : stream.received = s.stream.received) (hreads : s.push.reads = false)
    (hmutex : push.holds = true → s.pull.holds = false) (hok : push.Ok capacity stream)
    (hpushed : stream.sent ++ push.rest = pushed) :
    Inv capacity { s with stream := stream, push := push, pushed := pushed } where
  stream := hstream
  mutex := hmutex
  push := hok
  pull := h.pull.congr hreader
  reader _ hpull := hreader.trans (h.reader hreads hpull)
  pushed := hpushed
  output := h.output.trans (congrArg _ hreceived.symm)

theorem Inv.pushed_of_writer (h : s.Inv capacity) {stream : AudioStream α} {push : PushPhase α}
    {pushed : List α} (hstream : stream.Inv capacity) (hreader : stream.reader = s.stream.reader)
    (hreceived : stream.received = s.stream.received) (hreads : s.push.reads = false)
    (hmutex : push.holds = true → s.pull.holds = false) (hok : push.Ok capacity stream)
    (hpushed : stream.sent ++ push.rest = pushed)
    (htodo : push.todo capacity stream.writer < s.push.todo capacity s.stream.writer) :
    Pushed capacity s { s with stream := stream, push := push, pushed := pushed } :=
  ⟨h.of_writer hstream hreader hreceived hreads hmutex hok hpushed, htodo, rfl, fun _ ↦ hreader⟩

/-- A step that changes the phase only. -/
theorem Inv.of_push (h : s.Inv capacity) {push : PushPhase α} (hreads : s.push.reads = false)
    (hmutex : push.holds = true → s.pull.holds = false) (hok : push.Ok capacity s.stream)
    (hrest : push.rest = s.push.rest)
    (htodo : push.todo capacity s.stream.writer < s.push.todo capacity s.stream.writer) :
    Pushed capacity s { s with push := push } :=
  h.pushed_of_writer h.stream rfl rfl hreads hmutex hok (by rw [hrest, h.pushed]) htodo

theorem Inv.push_fill (h : s.Inv capacity) (hcap : capacity < 2 ^ 31) {count : ℕ}
    {samples : List α} (hpush : s.push = .fill count samples) :
    ∃ t, s.stepPush silence = some t ∧ Pushed capacity s t := by
  have hok := h.push
  have hpushed := h.pushed
  have hreads : s.push.reads = false := by rw [hpush]; rfl
  rw [hpush] at hok hpushed
  obtain ⟨hidle, hlength⟩ := hok
  replace hpushed : s.stream.sent = s.pushed := (List.append_nil _).symm.trans hpushed
  rw [AudioRegulator.stepPush, hpush]
  obtain hfull | hroom := eq_or_ne s.stream.buf.canWrite 0
  · refine ⟨s.writeFirst samples, ?_, ?_⟩
    · simp only [AudioStream.step, AudioStream.startWrite_of_full hidle hfull, if_pos hfull,
        Option.map_some]
    · refine h.pushed_of_writer h.stream rfl rfl hreads (fun hh ↦ absurd hh Bool.false_ne_true)
        ⟨hidle, hlength, fun hcall ↦ absurd hcall (by decide)⟩ ?_ ?_
      · exact congrArg (· ++ samples) hpushed
      · rw [hpush]
        show samples.length + 14 + 2 < capacity + samples.length + 18
        omega
  · obtain ⟨stream, hstart, hstream, hwriter, hreader, hsent, hreceived⟩ :=
      h.stream.startWrite_spec hcap (List.replicate count silence) hidle hroom
    refine ⟨{ s with stream := stream, push := .filling samples }, ?_, ?_⟩
    · simp only [AudioStream.step, hstart, if_neg hroom, Option.map_some]
    · refine h.pushed_of_writer hstream hreader hreceived hreads
        (fun hh ↦ absurd hh Bool.false_ne_true) ⟨fun heq ↦ ?_, hlength⟩ ?_ ?_
      · cases hwriter.symm.trans heq
      · exact (List.append_nil _).trans (hsent.trans hpushed)
      · have hwrite := h.stream.canWrite hcap
        rw [hpush, hwriter]
        show ((List.replicate count silence).take s.stream.buf.canWrite).length - 0 +
          samples.length + 17 < capacity + samples.length + 18
        rw [List.length_take]
        omega

theorem Inv.push_filling (h : s.Inv capacity) (hcap : capacity < 2 ^ 31) {samples : List α}
    (hpush : s.push = .filling samples) :
    ∃ t, s.stepPush silence = some t ∧ Pushed capacity s t := by
  have hok := h.push
  have hpushed := h.pushed
  have hreads : s.push.reads = false := by rw [hpush]; rfl
  rw [hpush] at hok hpushed
  obtain ⟨hbusy, hlength⟩ := hok
  replace hpushed : s.stream.sent = s.pushed := (List.append_nil _).symm.trans hpushed
  rw [AudioRegulator.stepPush, hpush]
  cases hwriter : s.stream.writer with
  | idle => exact absurd hwriter hbusy
  | writing head filled copied =>
    obtain hend | hmore := eq_or_ne copied filled.length
    · subst hend
      obtain ⟨stream, hstep, hstream, hidle, hreader, hsent, hreceived⟩ :=
        h.stream.publish_spec silence hcap hwriter
      refine ⟨AudioRegulator.writeFirst { s with
        stream := stream, pushed := s.pushed ++ filled } samples, ?_, ?_⟩
      · simp only [hstep, if_pos, Option.map_some, hpush]
      · refine h.pushed_of_writer hstream hreader hreceived hreads
          (fun hh ↦ absurd hh Bool.false_ne_true)
          ⟨hidle, hlength, fun hcall ↦ absurd hcall (by decide)⟩ ?_ ?_
        · rw [hsent, hpushed]
          rfl
        · rw [hpush, hwriter]
          show samples.length + 14 + 2 < filled.length - filled.length + samples.length + 17
          omega
    · obtain ⟨stream, hstep, hstream, hwriter', hreader, hsent, hreceived⟩ :=
        h.stream.copyIn_spec silence hwriter hmore
      refine ⟨{ s with stream := stream, push := .filling samples }, ?_, ?_⟩
      · simp only [hstep, if_neg hmore, Option.map_some]
      · refine h.pushed_of_writer hstream hreader hreceived hreads
          (fun hh ↦ absurd hh Bool.false_ne_true) ⟨fun heq ↦ ?_, hlength⟩ ?_ ?_
        · cases hwriter'.symm.trans heq
        · exact (List.append_nil _).trans (hsent.trans hpushed)
        · have hlt := lt_of_le_of_ne (h.stream.writer _ _ _ hwriter).2 hmore
          rw [hpush, hwriter, hwriter']
          show filled.length - (copied + 1) + samples.length + 17 <
            filled.length - copied + samples.length + 17
          omega

theorem Inv.push_write (h : s.Inv capacity) (hcap : capacity < 2 ^ 31) {call : WriteCall}
    {rest : List α} (hpush : s.push = .write call rest) :
    ∃ t, s.stepPush silence = some t ∧ Pushed capacity s t := by
  have hok := h.push
  have hpushed := h.pushed
  have hmutex := h.mutex
  have hreads : s.push.reads = false := by rw [hpush]; rfl
  have hwrite := h.stream.canWrite hcap
  have hle := h.stream.received_le
  have hfits := h.stream.fits
  rw [hpush] at hok hpushed hmutex
  obtain ⟨hidle, hlength, hlast⟩ := hok
  replace hpushed : s.stream.sent ++ rest = s.pushed := hpushed
  rw [AudioRegulator.stepPush, hpush]
  obtain hfull | hroom := eq_or_ne s.stream.buf.canWrite 0
  · obtain ⟨push, hafter, hok', hreads', hrest, hholds⟩ :=
      PushPhase.afterWrite_spec h.stream hidle call rest hlength
        (fun hcall ↦ List.length_eq_zero_iff.1 (by have := hlast hcall; omega))
        (fun _ _ ↦ by omega)
    refine ⟨{ s with push := push }, ?_, ?_⟩
    · simp only [AudioStream.step, AudioStream.startWrite_of_full hidle hfull, if_pos hfull,
        Option.bind_some, hafter, Option.map_some]
    · refine h.of_push hreads (fun hh ↦ hmutex ?_) hok' (hrest.trans (by rw [hpush]; rfl)) ?_
      · obtain rfl := hholds hh
        rfl
      · have htodo := PushPhase.todo_afterWrite capacity s.stream.writer hafter
        rw [hpush]
        show push.todo capacity s.stream.writer < rest.length + call.after + 2
        omega
  · obtain ⟨stream, hstart, hstream, hwriter, hreader, hsent, hreceived⟩ :=
      h.stream.startWrite_spec hcap rest hidle hroom
    have htake : (rest.take s.stream.buf.canWrite).length =
        min s.stream.buf.canWrite rest.length := List.length_take
    refine ⟨{ s with stream := stream, push := .writing call rest }, ?_, ?_⟩
    · simp only [AudioStream.step, hstart, if_neg hroom, Option.bind_some]
    · refine h.pushed_of_writer hstream hreader hreceived hreads (fun hh ↦ hmutex ?_)
        ⟨hlength, _, _, _, hwriter, List.take_prefix _ _, fun hcall ↦ ?_, fun hcall hne ↦ ?_⟩ ?_ ?_
      · cases call with
        | locked => rfl
        | _ => cases hh
      · have := hlast hcall
        exact List.take_of_length_le (by omega)
      · have hshort : s.stream.buf.canWrite < rest.length := by
          by_contra hlong
          exact hne (List.take_of_length_le (not_lt.1 hlong))
        rw [hsent, hreceived, htake]
        omega
      · rw [hsent]
        exact hpushed
      · rw [hpush, hwriter]
        show (rest.take s.stream.buf.canWrite).length - 0 +
          (rest.length - (rest.take s.stream.buf.canWrite).length) + call.after + 1 <
            rest.length + call.after + 2
        omega

theorem Inv.push_writing (h : s.Inv capacity) (hcap : capacity < 2 ^ 31) {call : WriteCall}
    {rest : List α} (hpush : s.push = .writing call rest) :
    ∃ t, s.stepPush silence = some t ∧ Pushed capacity s t := by
  have hok := h.push
  have hpushed := h.pushed
  have hmutex := h.mutex
  have hreads : s.push.reads = false := by rw [hpush]; rfl
  rw [hpush] at hok hpushed hmutex
  obtain ⟨hlength, head, samples, copied, hwriter, ⟨more, rfl⟩, hlast, hlocked⟩ := hok
  replace hpushed : s.stream.sent ++ (samples ++ more) = s.pushed := hpushed
  rw [AudioRegulator.stepPush, hpush, hwriter]
  obtain hend | hmore := eq_or_ne copied samples.length
  · subst hend
    obtain ⟨stream, hstep, hstream, hidle, hreader, hsent, hreceived⟩ :=
      h.stream.publish_spec silence hcap hwriter
    rw [List.length_append] at hlength
    obtain ⟨push, hafter, hok', hreads', hrest, hholds⟩ :=
      PushPhase.afterWrite_spec hstream hidle call more (by omega)
        (fun hcall ↦ List.self_eq_append_right.1 (hlast hcall))
        (fun hcall hne ↦ by
          rw [hsent, hreceived, List.length_append]
          exact hlocked hcall fun heq ↦ hne (List.self_eq_append_right.1 heq))
    refine ⟨{ s with stream := stream, push := push }, ?_, ?_⟩
    · simp only [hstep, if_pos, Option.bind_some, List.drop_left, hafter, Option.map_some]
    · refine h.pushed_of_writer hstream hreader hreceived hreads (fun hh ↦ hmutex ?_) hok' ?_ ?_
      · obtain rfl := hholds hh
        rfl
      · rw [hrest, hsent, List.append_assoc, hpushed]
      · have htodo := PushPhase.todo_afterWrite capacity stream.writer hafter
        rw [hpush, hwriter]
        show push.todo capacity stream.writer < samples.length - samples.length +
          ((samples ++ more).length - samples.length) + call.after + 1
        rw [List.length_append]
        omega
  · obtain ⟨stream, hstep, hstream, hwriter', hreader, hsent, hreceived⟩ :=
      h.stream.copyIn_spec silence hwriter hmore
    refine ⟨{ s with stream := stream, push := .writing call (samples ++ more) }, ?_, ?_⟩
    · simp only [hstep, if_neg hmore, Option.map_some]
    · refine h.pushed_of_writer hstream hreader hreceived hreads hmutex
        ⟨hlength, head, samples, copied + 1, hwriter', List.prefix_append _ _, hlast,
          fun hcall hne ↦ ?_⟩ ?_ ?_
      · rw [hsent, hreceived]
        exact hlocked hcall hne
      · rw [hsent]
        exact hpushed
      · have hlt := lt_of_le_of_ne (h.stream.writer _ _ _ hwriter).2 hmore
        rw [hpush, hwriter, hwriter']
        show samples.length - (copied + 1) + ((samples ++ more).length - samples.length) +
            call.after + 1 <
          samples.length - copied + ((samples ++ more).length - samples.length) + call.after + 1
        omega

/-- A step of the thread that pushes in `sc_audiobuf_read`, under the mutex: it drops samples. -/
theorem Inv.pushed_of_reader (h : s.Inv capacity) {stream : AudioStream α} {push : PushPhase α}
    (hstream : stream.Inv capacity) (hsent : stream.sent = s.stream.sent)
    (hreceived : ∃ count, stream.received = s.stream.received ++ List.replicate count none)
    (hholds : s.push.holds = true) (hok : push.Ok capacity stream)
    (hreader : push.reads = false → stream.reader = .idle) (hrest : push.rest = s.push.rest)
    (htodo : push.todo capacity stream.writer < s.push.todo capacity s.stream.writer) :
    Pushed capacity s { s with stream := stream, push := push } where
  inv := by
    refine ⟨hstream, fun _ ↦ h.mutex hholds, hok, h.pull.of_not_holds (h.mutex hholds),
      fun hpush _ ↦ hreader hpush, ?_, ?_⟩
    · show stream.sent ++ push.rest = s.pushed
      rw [hsent, hrest, h.pushed]
    · obtain ⟨count, hcount⟩ := hreceived
      show s.output.reduceOption ++ s.pull.samples = stream.received.reduceOption
      rw [hcount, List.reduceOption_append, List.reduceOption_replicate_none, List.append_nil,
        h.output]
  todo := htodo
  pull := rfl
  reader hpull :=
    absurd ((h.mutex hholds).symm.trans (PullPhase.holds_of_reads hpull)) Bool.false_ne_true

/-- Nobody reads while the thread that pushes has the mutex and does not read. -/
theorem Inv.reader_idle (h : s.Inv capacity) (hholds : s.push.holds = true)
    (hreads : s.push.reads = false) : s.stream.reader = .idle := by
  refine h.reader hreads ?_
  have hpull := h.mutex hholds
  cases hp : s.pull.reads with
  | false => rfl
  | true => exact absurd (hpull.symm.trans (PullPhase.holds_of_reads hp)) Bool.false_ne_true

/-- `assert(skipped_samples == remaining)` begins here: the buffer is full. -/
theorem Inv.push_drop (h : s.Inv capacity) (hcap : capacity < 2 ^ 31) {rest : List α}
    (hpush : s.push = .drop rest) :
    ∃ t, s.stepPush silence = some t ∧ Pushed capacity s t := by
  have hok := h.push
  have hholds : s.push.holds = true := by rw [hpush]; rfl
  have hreads : s.push.reads = false := by rw [hpush]; rfl
  have hreader := h.reader_idle hholds hreads
  have hread := h.stream.canRead hcap
  rw [hpush] at hok
  obtain ⟨hidle, hlength, hne, hfull⟩ := hok
  have hpos : 0 < rest.length := List.length_pos_iff.2 hne
  have hsome : s.stream.buf.canRead ≠ 0 := by omega
  obtain ⟨stream, hstart, hstream, hreader', hwriter, hsent, hreceived⟩ :=
    h.stream.startRead_spec hcap true hreader hpos.ne' hsome
  rw [AudioRegulator.stepPush, hpush]
  refine ⟨{ s with stream := stream, push := .dropping rest }, ?_, ?_⟩
  · simp only [AudioStream.step, hstart, if_neg hsome, Option.map_some]
  · refine h.pushed_of_reader hstream hsent ⟨0, hreceived.trans (List.append_nil _).symm⟩ hholds
      ⟨hwriter.trans hidle, hlength, s.stream.buf.tail, ?_⟩
      (fun hh ↦ absurd hh.symm Bool.false_ne_true) (by rw [hpush]; rfl)
      (by rw [hpush]; exact Nat.lt_succ_self _)
    rw [hreader', Nat.min_eq_left (by omega)]
    rfl

theorem Inv.push_dropping (h : s.Inv capacity) (hcap : capacity < 2 ^ 31) {rest : List α}
    (hpush : s.push = .dropping rest) :
    ∃ t, s.stepPush silence = some t ∧ Pushed capacity s t := by
  have hok := h.push
  have hholds : s.push.holds = true := by rw [hpush]; rfl
  have hfits := h.stream.fits
  rw [hpush] at hok
  obtain ⟨hidle, hlength, tail, hreader⟩ := hok
  obtain ⟨stream, hstep, hstream, hreader', hwriter, hsent, hreceived⟩ :=
    h.stream.release_spec silence hcap hreader (by simp)
  rw [AudioRegulator.stepPush, hpush, hreader]
  refine ⟨{ s with stream := stream, push := .unlock rest }, ?_, ?_⟩
  · simp only [if_pos, hstep, Option.map_some]
  · refine h.pushed_of_reader hstream hsent ⟨_, hreceived⟩ hholds ⟨hwriter.trans hidle, hlength, ?_⟩
      (fun _ ↦ hreader') (by rw [hpush]; rfl) (by rw [hpush]; exact Nat.lt_succ_self _)
    rw [hsent, hreceived, List.length_append, AudioStream.taken, List.length_replicate]
    omega

theorem Inv.push_unlock (h : s.Inv capacity) {rest : List α} (hpush : s.push = .unlock rest) :
    ∃ t, s.stepPush silence = some t ∧ Pushed capacity s t := by
  have hok := h.push
  have hreads : s.push.reads = false := by rw [hpush]; rfl
  rw [hpush] at hok
  obtain ⟨hidle, hlength, hroom⟩ := hok
  rw [AudioRegulator.stepPush, hpush]
  cases rest with
  | nil =>
    exact ⟨_, rfl, h.of_push hreads (fun hh ↦ absurd hh Bool.false_ne_true) hidle
      (by rw [hpush]; rfl) (by rw [hpush]; exact (by decide : 6 < 9))⟩
  | cons a rest =>
    exact ⟨_, rfl, h.of_push hreads (fun hh ↦ absurd hh Bool.false_ne_true)
      ⟨hidle, hlength, fun _ ↦ hroom⟩ (by rw [hpush]; rfl)
      (by rw [hpush]; exact Nat.lt_succ_self _)⟩

theorem Inv.push_recheck (h : s.Inv capacity) (hcap : capacity < 2 ^ 31) {max : ℕ}
    (hpush : s.push = .recheck max) :
    ∃ t, s.stepPush silence = some t ∧ Pushed capacity s t := by
  have hidle := h.push
  have hholds : s.push.holds = true := by rw [hpush]; rfl
  have hreads : s.push.reads = false := by rw [hpush]; rfl
  have hreader := h.reader_idle hholds hreads
  rw [hpush] at hidle
  rw [AudioRegulator.stepPush, hpush]
  obtain hmany | hfew := lt_or_ge max s.stream.buf.canRead
  · obtain ⟨stream, hstart, hstream, hreader', hwriter, hsent, hreceived⟩ :=
      h.stream.startRead_spec hcap true hreader (Nat.sub_ne_zero_of_lt hmany) (by omega)
    refine ⟨{ s with stream := stream, push := .skipping (s.stream.buf.canRead - max) }, ?_, ?_⟩
    · simp only [AudioStream.step, hstart, if_pos hmany, Option.map_some]
    · refine h.pushed_of_reader hstream hsent ⟨0, hreceived.trans (List.append_nil _).symm⟩ hholds
        ⟨hwriter.trans hidle, s.stream.buf.tail, ?_⟩ (fun hh ↦ absurd hh.symm Bool.false_ne_true)
        (by rw [hpush]; rfl) (by rw [hpush]; exact Nat.lt_succ_self _)
      rw [hreader', Nat.min_eq_left (Nat.sub_le _ _)]
      rfl
  · refine ⟨{ s with push := .unlockCheck }, if_neg hfew.not_gt, ?_⟩
    exact h.of_push hreads (fun _ ↦ h.mutex hholds) hidle (by rw [hpush]; rfl)
      (by rw [hpush]; exact (by decide : 1 < 3))

theorem Inv.push_skipping (h : s.Inv capacity) (hcap : capacity < 2 ^ 31) {count : ℕ}
    (hpush : s.push = .skipping count) :
    ∃ t, s.stepPush silence = some t ∧ Pushed capacity s t := by
  have hok := h.push
  have hholds : s.push.holds = true := by rw [hpush]; rfl
  rw [hpush] at hok
  obtain ⟨hidle, tail, hreader⟩ := hok
  obtain ⟨stream, hstep, hstream, hreader', hwriter, hsent, hreceived⟩ :=
    h.stream.release_spec silence hcap hreader (by simp)
  rw [AudioRegulator.stepPush, hpush, hreader]
  refine ⟨{ s with stream := stream, push := .unlockCheck }, ?_, ?_⟩
  · simp only [if_pos, hstep, Option.map_some]
  · exact h.pushed_of_reader hstream hsent ⟨_, hreceived⟩ hholds (hwriter.trans hidle)
      (fun _ ↦ hreader') (by rw [hpush]; rfl) (by rw [hpush]; exact Nat.lt_succ_self _)

/-- **A push goes on**, with its assertions, unless it waits for the mutex that the other thread
has. -/
theorem Inv.stepPush (h : s.Inv capacity) (silence : α) (hcap : capacity < 2 ^ 31)
    (hidle : s.push ≠ .idle) (hwait : s.push.waits = true → s.pull.holds = false) :
    ∃ t, s.stepPush silence = some t ∧ Pushed capacity s t := by
  have hok := h.push
  cases hpush : s.push with
  | idle => exact absurd hpush hidle
  | fill count samples => exact h.push_fill hcap hpush
  | filling samples => exact h.push_filling hcap hpush
  | write call rest => exact h.push_write hcap hpush
  | writing call rest => exact h.push_writing hcap hpush
  | drop rest => exact h.push_drop hcap hpush
  | dropping rest => exact h.push_dropping hcap hpush
  | unlock rest => exact h.push_unlock hpush
  | recheck max => exact h.push_recheck hcap hpush
  | skipping count => exact h.push_skipping hcap hpush
  | lock rest =>
    rw [hpush] at hok hwait
    have hpull : s.pull.holds = false := hwait rfl
    rw [AudioRegulator.stepPush, hpush]
    refine ⟨{ s with push := .write .locked rest }, if_neg (by rw [hpull]; decide), ?_⟩
    exact h.of_push (by rw [hpush]; rfl) (fun _ ↦ hpull)
      ⟨hok.1, hok.2, fun hcall ↦ absurd hcall (by decide)⟩ (by rw [hpush]; rfl)
      (by rw [hpush]; exact Nat.lt_succ_self _)
  | lockCheck max =>
    rw [hpush] at hok hwait
    have hpull : s.pull.holds = false := hwait rfl
    rw [AudioRegulator.stepPush, hpush]
    refine ⟨{ s with push := .recheck max }, if_neg (by rw [hpull]; decide), ?_⟩
    exact h.of_push (by rw [hpush]; rfl) (fun _ ↦ hpull) hok (by rw [hpush]; rfl)
      (by rw [hpush]; exact Nat.lt_succ_self _)
  | limit =>
    rw [hpush] at hok
    rw [AudioRegulator.stepPush, hpush]
    exact ⟨_, rfl, h.of_push (by rw [hpush]; rfl) (fun hh ↦ absurd hh Bool.false_ne_true) hok
      (by rw [hpush]; rfl) (by rw [hpush]; exact Nat.lt_succ_self _)⟩
  | check max =>
    rw [hpush] at hok
    rw [AudioRegulator.stepPush, hpush]
    refine ⟨_, rfl, ?_⟩
    split_ifs
    · exact h.of_push (by rw [hpush]; rfl) (fun hh ↦ absurd hh Bool.false_ne_true) hok
        (by rw [hpush]; rfl) (by rw [hpush]; exact Nat.lt_succ_self _)
    · exact h.of_push (by rw [hpush]; rfl) (fun hh ↦ absurd hh Bool.false_ne_true) hok
        (by rw [hpush]; rfl) (by rw [hpush]; exact (by decide : 0 < 5))
  | unlockCheck =>
    rw [hpush] at hok
    rw [AudioRegulator.stepPush, hpush]
    exact ⟨_, rfl, h.of_push (by rw [hpush]; rfl) (fun hh ↦ absurd hh Bool.false_ne_true) hok
      (by rw [hpush]; rfl) (by rw [hpush]; exact Nat.lt_succ_self _)⟩

/-! ### The thread that pulls -/

/-- A step of the thread that pulls that does not concern the buffer. -/
theorem Inv.of_pull (h : s.Inv capacity) {played : Bool} {pull : PullPhase α}
    {output : List (Option α)} (hreads : s.pull.reads = false)
    (hmutex : pull.holds = true → s.push.holds = false) (hok : pull.Ok s.stream)
    (houtput : output.reduceOption ++ pull.samples =
      s.output.reduceOption ++ s.pull.samples) :
    Inv capacity { s with played := played, pull := pull, output := output } where
  stream := h.stream
  mutex hpush := by
    show pull.holds = false
    by_contra hne
    have := hmutex (Bool.not_eq_false _ ▸ hne)
    exact absurd (this.symm.trans hpush) Bool.false_ne_true
  push := h.push
  pull := hok
  reader hpush _ := h.reader hpush hreads
  pushed := h.pushed
  output := houtput.trans h.output

theorem Inv.pulled_of_pull (h : s.Inv capacity) {played : Bool} {pull : PullPhase α}
    {output : List (Option α)} (hreads : s.pull.reads = false)
    (hmutex : pull.holds = true → s.push.holds = false) (hok : pull.Ok s.stream)
    (houtput : output.reduceOption ++ pull.samples =
      s.output.reduceOption ++ s.pull.samples)
    (htodo : pull.todo capacity s.stream.reader < s.pull.todo capacity s.stream.reader) :
    Pulled capacity s { s with played := played, pull := pull, output := output } :=
  ⟨h.of_pull hreads hmutex hok houtput, htodo, rfl, rfl⟩

/-- A step of the thread that pulls in `sc_audiobuf_read`, under the mutex. -/
theorem Inv.pulled_of_reader (h : s.Inv capacity) {stream : AudioStream α} {pull : PullPhase α}
    (hstream : stream.Inv capacity) (hwriter : stream.writer = s.stream.writer)
    (hsent : stream.sent = s.stream.sent) {more : List (Option α)}
    (hreceived : stream.received = s.stream.received ++ more)
    (hpush : s.push.holds = false) (hok : pull.Ok stream)
    (hreader : pull.reads = false → stream.reader = .idle)
    (houtput : pull.samples = s.pull.samples ++ more.reduceOption)
    (htodo : pull.todo capacity stream.reader < s.pull.todo capacity s.stream.reader) :
    Pulled capacity s { s with stream := stream, pull := pull } where
  inv := by
    refine ⟨hstream, fun hh ↦ absurd (hpush.symm.trans hh) Bool.false_ne_true,
      h.push.mono hpush hwriter hsent ?_, hok, fun _ hpull ↦ hreader hpull, ?_, ?_⟩
    · rw [hreceived, List.length_append]
      exact Nat.le_add_right _ _
    · show stream.sent ++ s.push.rest = s.pushed
      rw [hsent, h.pushed]
    · show s.output.reduceOption ++ pull.samples = stream.received.reduceOption
      rw [hreceived, houtput, List.reduceOption_append, ← h.output, List.append_assoc]
  todo := htodo
  push := rfl
  writer := hwriter

theorem Inv.push_not_holds (h : s.Inv capacity) (hpull : s.pull.holds = true) :
    s.push.holds = false := by
  cases hp : s.push.holds with
  | false => rfl
  | true => exact absurd ((h.mutex hp).symm.trans hpull) Bool.false_ne_true

theorem Inv.pull_read (h : s.Inv capacity) (hcap : capacity < 2 ^ 31) {count : ℕ}
    (hpull : s.pull = .read count) :
    ∃ t, s.stepPull silence = some t ∧ Pulled capacity s t := by
  have hcount : count ≠ 0 := by
    have hok := h.pull
    rw [hpull] at hok
    exact hok
  have hreads : s.pull.reads = false := by rw [hpull]; rfl
  have hpush : s.push.holds = false := h.push_not_holds (by rw [hpull]; rfl)
  have hsamples : s.pull.samples = [] := by rw [hpull]; rfl
  have hreader : s.stream.reader = .idle := by
    refine h.reader ?_ hreads
    cases hp : s.push.reads with
    | false => rfl
    | true => exact absurd (hpush.symm.trans (PushPhase.holds_of_reads hp)) Bool.false_ne_true
  rw [AudioRegulator.stepPull, hpull]
  obtain hempty | hsome := eq_or_ne s.stream.buf.canRead 0
  · refine ⟨{ s with pull := .unlock count [] }, ?_, ?_⟩
    · simp only [AudioStream.step, AudioStream.startRead_of_empty hreader hcount hempty,
        if_pos hempty, Option.map_some]
    · refine h.pulled_of_pull hreads (fun _ ↦ hpush) trivial ?_ ?_
      · rw [hsamples]
        rfl
      · rw [hpull]
        show 2 < capacity + 4
        omega
  · obtain ⟨stream, hstart, hstream, hreader', hwriter, hsent, hreceived⟩ :=
      h.stream.startRead_spec hcap false hreader hcount hsome
    refine ⟨{ s with stream := stream, pull := .reading count }, ?_, ?_⟩
    · simp only [AudioStream.step, hstart, if_neg hsome, Option.map_some]
    · refine h.pulled_of_reader hstream hwriter hsent (hreceived.trans (List.append_nil _).symm)
        hpush ⟨_, _, _, hreader'⟩ (fun hh ↦ absurd hh.symm Bool.false_ne_true) ?_ ?_
      · rw [hsamples]
        rfl
      · have hread := h.stream.canRead hcap
        have hfits := h.stream.fits
        rw [hpull, hreader']
        show min count s.stream.buf.canRead - 0 + 3 < capacity + 4
        omega

theorem Inv.pull_reading (h : s.Inv capacity) (hcap : capacity < 2 ^ 31) {count : ℕ}
    (hpull : s.pull = .reading count) :
    ∃ t, s.stepPull silence = some t ∧ Pulled capacity s t := by
  have hok := h.pull
  have hpush : s.push.holds = false := h.push_not_holds (by rw [hpull]; rfl)
  have hsamples : s.pull.samples = [] := by rw [hpull]; rfl
  rw [hpull] at hok
  obtain ⟨tail, n, out, hreader⟩ := hok
  rw [AudioRegulator.stepPull, hpull, hreader]
  obtain hend | hmore := eq_or_ne out.length n
  · obtain ⟨stream, hstep, hstream, hreader', hwriter, hsent, hreceived⟩ :=
      h.stream.release_spec silence hcap hreader
        (fun samples hmem ↦ (congrArg _ (Option.some.inj hmem)).symm.trans hend)
    refine ⟨{ s with stream := stream, pull := .unlock count out }, ?_, ?_⟩
    · simp only [if_pos hend, hstep, Option.map_some]
    · refine h.pulled_of_reader hstream hwriter hsent hreceived hpush trivial (fun _ ↦ hreader')
        ?_ ?_
      · rw [hsamples, AudioStream.taken, List.nil_append, List.reduceOption, List.filterMap_map]
        exact (List.filterMap_some).symm
      · rw [hpull, hreader]
        show 2 < n - out.length + 3
        omega
  · obtain ⟨stream, hstep, hstream, ⟨a, hreader'⟩, hwriter, hsent, hreceived⟩ :=
      h.stream.copyOut_spec silence hreader hmore
    refine ⟨{ s with stream := stream, pull := .reading count }, ?_, ?_⟩
    · simp only [if_neg hmore, hstep, Option.map_some]
    · refine h.pulled_of_reader hstream hwriter hsent (hreceived.trans (List.append_nil _).symm)
        hpush ⟨_, _, _, hreader'⟩ (fun hh ↦ absurd hh.symm Bool.false_ne_true) ?_ ?_
      · rw [hsamples]
        rfl
      · rw [hpull, hreader, hreader']
        have hle : out.length ≤ n := ((h.stream.reader _ _ _ hreader).2.2 out rfl).1
        show n - (out ++ [a]).length + 3 < n - out.length + 3
        rw [List.length_append, List.length_singleton]
        omega

/-- **A pull goes on** unless it waits for the mutex that the other thread has. -/
theorem Inv.stepPull (h : s.Inv capacity) (silence : α) (hcap : capacity < 2 ^ 31)
    (hidle : s.pull ≠ .idle) (hwait : s.pull.waits = true → s.push.holds = false) :
    ∃ t, s.stepPull silence = some t ∧ Pulled capacity s t := by
  have hok := h.pull
  cases hpull : s.pull with
  | idle => exact absurd hpull hidle
  | read count => exact h.pull_read hcap hpull
  | reading count => exact h.pull_reading hcap hpull
  | lock count =>
    have hreads : s.pull.reads = false := by rw [hpull]; rfl
    rw [hpull] at hok hwait
    have hpush : s.push.holds = false := hwait rfl
    rw [AudioRegulator.stepPull, hpull]
    refine ⟨{ s with pull := .check count }, if_neg (by rw [hpush]; decide), ?_⟩
    exact h.pulled_of_pull hreads (fun _ ↦ hpush) hok (by rw [hpull]; rfl)
      (by rw [hpull]; exact Nat.lt_succ_self _)
  | check count =>
    have hreads : s.pull.reads = false := by rw [hpull]; rfl
    have hpush : s.push.holds = false := h.push_not_holds (by rw [hpull]; rfl)
    rw [hpull] at hok
    rw [AudioRegulator.stepPull, hpull]
    dsimp only
    split_ifs
    · refine ⟨_, rfl, h.pulled_of_pull hreads (fun _ ↦ hpush) trivial (by rw [hpull]; rfl) ?_⟩
      rw [hpull]
      show 1 < capacity + 5
      omega
    · exact ⟨_, rfl, h.pulled_of_pull hreads (fun _ ↦ hpush) hok (by rw [hpull]; rfl)
        (by rw [hpull]; exact Nat.lt_succ_self _)⟩
  | unlockSilent count =>
    have hreads : s.pull.reads = false := by rw [hpull]; rfl
    rw [AudioRegulator.stepPull, hpull]
    refine ⟨_, rfl, h.pulled_of_pull hreads (fun hh ↦ absurd hh Bool.false_ne_true) trivial ?_
      (by rw [hpull]; exact Nat.lt_succ_self _)⟩
    rw [hpull, List.reduceOption_append, List.reduceOption_replicate_none, List.append_nil]
    rfl
  | unlock count samples =>
    have hreads : s.pull.reads = false := by rw [hpull]; rfl
    rw [AudioRegulator.stepPull, hpull]
    exact ⟨_, rfl, h.pulled_of_pull hreads (fun hh ↦ absurd hh Bool.false_ne_true) trivial
      (by rw [hpull]; rfl) (by rw [hpull]; exact Nat.lt_succ_self _)⟩
  | fill count samples =>
    have hreads : s.pull.reads = false := by rw [hpull]; rfl
    have hsome : (samples.map some).reduceOption = samples := by
      rw [List.reduceOption, List.filterMap_map]
      exact List.filterMap_some
    rw [AudioRegulator.stepPull, hpull]
    refine ⟨_, rfl, h.pulled_of_pull hreads (fun hh ↦ absurd hh Bool.false_ne_true) trivial ?_
      (by rw [hpull]; exact Nat.lt_succ_self _)⟩
    rw [hpull, List.reduceOption_append, List.reduceOption_append,
      List.reduceOption_replicate_none, hsome, List.append_nil]
    exact List.append_nil _

/-! ### The runs -/

theorem Inv.startPush (h : s.Inv capacity) {samples : List α} {inputSamples : ℕ}
    {discontinuity : Bool} (hstep : s.startPush samples inputSamples discontinuity = some t) :
    t.Inv capacity := by
  have hidle := h.push
  have hpushed := h.pushed
  rw [AudioRegulator.startPush] at hstep
  split at hstep
  · next hpush =>
    have hreads : s.push.reads = false := by rw [hpush]; rfl
    have hlength : (samples.drop (samples.length - s.stream.buf.capacity)).length ≤ capacity := by
      rw [List.length_drop, AudioBuf.capacity, h.stream.allocSize]
      omega
    rw [hpush] at hidle hpushed
    replace hpushed : s.stream.sent = s.pushed := (List.append_nil _).symm.trans hpushed
    dsimp only at hstep
    split_ifs at hstep
    · obtain rfl := Option.some.inj hstep
      exact h.of_writer h.stream rfl rfl hreads (fun hh ↦ absurd hh Bool.false_ne_true)
        ⟨hidle, hlength⟩ ((List.append_nil _).trans hpushed)
    · obtain rfl := Option.some.inj hstep
      exact h.of_writer h.stream rfl rfl hreads (fun hh ↦ absurd hh Bool.false_ne_true)
        ⟨hidle, hlength, fun hcall ↦ absurd hcall (by decide)⟩
        (congrArg (· ++ samples.drop (samples.length - s.stream.buf.capacity)) hpushed)
  · cases hstep

theorem Inv.step_push (h : s.Inv capacity) (hcap : capacity < 2 ^ 31)
    (hstep : s.step silence .push = some t) : Pushed capacity s t := by
  have hidle : s.push ≠ .idle := by
    intro hpush
    rw [AudioRegulator.step, AudioRegulator.stepPush, hpush] at hstep
    cases hstep
  have hwait : s.push.waits = true → s.pull.holds = false := by
    intro hwaits
    by_contra hne
    have hpull : s.pull.holds = true := Bool.not_eq_false _ ▸ hne
    rw [AudioRegulator.step, AudioRegulator.stepPush] at hstep
    cases hpush : s.push with
    | lock | lockCheck =>
      rw [hpush] at hstep
      cases (if_pos hpull).symm.trans hstep
    | _ =>
      rw [hpush] at hwaits
      cases hwaits
  obtain ⟨t', ht', hpushed⟩ := h.stepPush silence hcap hidle hwait
  obtain rfl := Option.some.inj (ht'.symm.trans hstep)
  exact hpushed

theorem Inv.step_pull (h : s.Inv capacity) (hcap : capacity < 2 ^ 31)
    (hstep : s.step silence .pull = some t) : Pulled capacity s t := by
  have hidle : s.pull ≠ .idle := by
    intro hpull
    rw [AudioRegulator.step, AudioRegulator.stepPull, hpull] at hstep
    cases hstep
  have hwait : s.pull.waits = true → s.push.holds = false := by
    intro hwaits
    by_contra hne
    have hpush : s.push.holds = true := Bool.not_eq_false _ ▸ hne
    rw [AudioRegulator.step, AudioRegulator.stepPull] at hstep
    cases hpull : s.pull with
    | lock =>
      rw [hpull] at hstep
      cases (if_pos hpush).symm.trans hstep
    | _ =>
      rw [hpull] at hwaits
      cases hwaits
  obtain ⟨t', ht', hpulled⟩ := h.stepPull silence hcap hidle hwait
  obtain rfl := Option.some.inj (ht'.symm.trans hstep)
  exact hpulled

theorem startPush_frame {samples : List α} {inputSamples : ℕ} {discontinuity : Bool}
    (hstep : s.startPush samples inputSamples discontinuity = some t) :
    t.pull = s.pull ∧ t.stream = s.stream := by
  rw [AudioRegulator.startPush] at hstep
  split at hstep
  · dsimp only at hstep
    split_ifs at hstep
    · obtain rfl := Option.some.inj hstep
      exact ⟨rfl, rfl⟩
    · obtain rfl := Option.some.inj hstep
      exact ⟨rfl, rfl⟩
  · cases hstep

theorem step_request {outSamples : ℕ} (hstep : s.step silence (.request outSamples) = some t) :
    s.pull = .idle ∧ outSamples ≠ 0 ∧ t = { s with pull := .lock outSamples } := by
  rw [AudioRegulator.step] at hstep
  split at hstep
  · next hpull =>
    obtain ⟨hcount, hstep⟩ := Option.ite_none_left_eq_some.1 hstep
    exact ⟨hpull, hcount, (Option.some.inj hstep).symm⟩
  · cases hstep

theorem Inv.step (h : s.Inv capacity) (hcap : capacity < 2 ^ 31) {l : RegulatorStep α}
    (hstep : s.step silence l = some t) : t.Inv capacity := by
  cases l with
  | call samples inputSamples discontinuity => exact h.startPush hstep
  | push => exact (h.step_push hcap hstep).inv
  | request outSamples =>
    obtain ⟨hpull, hcount, rfl⟩ := step_request hstep
    exact h.of_pull (by rw [hpull]; rfl) (fun hh ↦ absurd hh Bool.false_ne_true) hcount
      (by rw [hpull]; rfl)
  | pull => exact (h.step_pull hcap hstep).inv

theorem inv_init {targetBuffering sampleRate : ℕ} {memory : Bool}
    (hcap : targetBuffering + sampleRate < 2 ^ 31)
    (h : init targetBuffering sampleRate memory = some s) :
    s.Inv (targetBuffering + sampleRate) := by
  obtain ⟨stream, hstream, rfl⟩ := Option.map_eq_some_iff.1 h
  rw [← Int.natCast_add, uint32_natCast (by omega)] at hstream
  have hinv := AudioStream.inv_init hcap hstream
  obtain ⟨b, -, rfl⟩ := Option.map_eq_some_iff.1 hstream
  exact ⟨hinv, fun hh ↦ absurd hh Bool.false_ne_true, rfl, trivial, fun _ _ ↦ rfl, rfl, rfl⟩

theorem Inv.exec (hcap : capacity < 2 ^ 31) {steps : List (RegulatorStep α)}
    (h : s.Inv capacity) (hexec : exec (AudioRegulator.step silence) s steps = some t) :
    t.Inv capacity :=
  exec_invariant_along (C := fun _ _ ↦ True) (fun _ _ _ _ hs hstep ↦ hs.step hcap hstep)
    (along_of_forall (fun _ _ ↦ trivial) _ _) h hexec

theorem reduceOption_sublist {l : List (Option α)} {m : List α}
    (h : ∀ (i : ℕ) (a : α), l[i]? = some (some a) → m[i]? = some a) :
    l.reduceOption.Sublist m := by
  induction l generalizing m with
  | nil => exact List.nil_sublist m
  | cons o l ih =>
    have htail : l.reduceOption.Sublist m.tail := by
      refine ih fun i a hi ↦ ?_
      rw [List.getElem?_tail]
      exact h (i + 1) a hi
    cases o with
    | none =>
      rw [List.reduceOption_cons_of_none]
      exact htail.trans (List.tail_sublist m)
    | some a =>
      have hhead : m[0]? = some a := h 0 a rfl
      obtain ⟨b, m, rfl⟩ : ∃ b m', m = b :: m' :=
        List.exists_cons_of_length_pos (List.getElem?_eq_some_iff.1 hhead).1
      obtain rfl := Option.some.inj hhead
      rw [List.reduceOption_cons_of_some]
      exact htail.cons_cons b

/-- What the player got was pushed, in this order. -/
theorem Inv.output_sublist (h : s.Inv capacity) : s.output.reduceOption.Sublist s.pushed := by
  have hreceived : s.output.reduceOption.Sublist s.stream.received.reduceOption := by
    rw [← h.output]
    exact List.sublist_append_left _ _
  have hsent : s.stream.sent.Sublist s.pushed := by
    rw [← h.pushed]
    exact List.sublist_append_left _ _
  exact (hreceived.trans (reduceOption_sublist h.stream.received)).trans hsent

theorem Inv.push_goes_on (h : s.Inv capacity) (silence : α) (hcap : capacity < 2 ^ 31)
    (hidle : s.push ≠ .idle) :
    (s.step silence .push).isSome ∨ s.push.waits = true ∧ s.pull.holds = true := by
  by_cases hwait : s.push.waits = true ∧ s.pull.holds = true
  · exact .inr hwait
  · obtain ⟨t, ht, -⟩ := h.stepPush silence hcap hidle
      fun hwaits ↦ Bool.not_eq_true _ ▸ fun hholds ↦ hwait ⟨hwaits, hholds⟩
    exact .inl (Option.isSome_of_eq_some ht)

theorem Inv.pull_goes_on (h : s.Inv capacity) (silence : α) (hcap : capacity < 2 ^ 31)
    (hidle : s.pull ≠ .idle) :
    (s.step silence .pull).isSome ∨ s.pull.waits = true ∧ s.push.holds = true := by
  by_cases hwait : s.pull.waits = true ∧ s.push.holds = true
  · exact .inr hwait
  · obtain ⟨t, ht, -⟩ := h.stepPull silence hcap hidle
      fun hwaits ↦ Bool.not_eq_true _ ▸ fun hholds ↦ hwait ⟨hwaits, hholds⟩
    exact .inl (Option.isSome_of_eq_some ht)

/-- **The two threads never block each other.** -/
theorem Inv.goes_on (h : s.Inv capacity) (silence : α) (hcap : capacity < 2 ^ 31)
    (hbusy : s.push ≠ .idle ∨ s.pull ≠ .idle) :
    (s.step silence .push).isSome ∨ (s.step silence .pull).isSome := by
  -- a thread that another one waits for has the mutex, and does not wait itself
  obtain hpush | hpull := hbusy
  · obtain hsome | ⟨-, hholds⟩ := h.push_goes_on silence hcap hpush
    · exact .inl hsome
    · have hpull : s.pull ≠ .idle := fun heq ↦ by
        rw [heq] at hholds
        cases hholds
      obtain hsome | ⟨hwaits, -⟩ := h.pull_goes_on silence hcap hpull
      · exact .inr hsome
      · exact absurd ((PullPhase.not_holds_of_waits hwaits).symm.trans hholds)
          Bool.false_ne_true
  · obtain hsome | ⟨-, hholds⟩ := h.pull_goes_on silence hcap hpull
    · exact .inr hsome
    · have hpush : s.push ≠ .idle := fun heq ↦ by
        rw [heq] at hholds
        cases hholds
      obtain hsome | ⟨hwaits, -⟩ := h.push_goes_on silence hcap hpush
      · exact .inl hsome
      · exact absurd ((PushPhase.not_holds_of_waits hwaits).symm.trans hholds)
          Bool.false_ne_true

/-! ### How long a call takes -/

theorem PullPhase.todo_congr {p : PullPhase α} {r r' : AudioReader α}
    (h : p.reads = true → r' = r) : p.todo capacity r' = p.todo capacity r := by
  cases p with
  | reading => rw [h rfl]
  | _ => rfl

/-- The steps of a push are counted by what it has still to do. -/
theorem Inv.push_steps (hcap : capacity < 2 ^ 31) {steps : List (RegulatorStep α)}
    (h : s.Inv capacity) (hcalls : ∀ l ∈ steps, l.isCall = false)
    (hexec : LabelledSystem.exec (AudioRegulator.step silence) s steps = some t) :
    steps.countP RegulatorStep.isPush + t.push.todo capacity t.stream.writer ≤
      s.push.todo capacity s.stream.writer := by
  induction steps generalizing s with
  | nil =>
    obtain rfl := Option.some.inj hexec
    exact (Nat.zero_add _).le
  | cons l steps ih =>
    obtain ⟨u, hu, hrest⟩ := exec_cons_eq_some_iff.1 hexec
    have hsteps := ih (h.step hcap hu) (fun l hl ↦ hcalls l (List.mem_cons_of_mem _ hl)) hrest
    have hl := hcalls l List.mem_cons_self
    cases l with
    | call => cases hl
    | push =>
      have htodo := (h.step_push hcap hu).todo
      rw [List.countP_cons_of_pos rfl]
      omega
    | request outSamples =>
      obtain ⟨-, -, rfl⟩ := step_request hu
      rw [List.countP_cons_of_neg Bool.false_ne_true]
      exact hsteps
    | pull =>
      have hpulled := h.step_pull hcap hu
      rw [hpulled.push, hpulled.writer] at hsteps
      rw [List.countP_cons_of_neg Bool.false_ne_true]
      exact hsteps

/-- The steps of a pull are counted by what it has still to do. -/
theorem Inv.pull_steps (hcap : capacity < 2 ^ 31) {steps : List (RegulatorStep α)}
    (h : s.Inv capacity) (hrequests : ∀ l ∈ steps, l.isRequest = false)
    (hexec : LabelledSystem.exec (AudioRegulator.step silence) s steps = some t) :
    steps.countP RegulatorStep.isPull + t.pull.todo capacity t.stream.reader ≤
      s.pull.todo capacity s.stream.reader := by
  induction steps generalizing s with
  | nil =>
    obtain rfl := Option.some.inj hexec
    exact (Nat.zero_add _).le
  | cons l steps ih =>
    obtain ⟨u, hu, hrest⟩ := exec_cons_eq_some_iff.1 hexec
    have hsteps := ih (h.step hcap hu) (fun l hl ↦ hrequests l (List.mem_cons_of_mem _ hl)) hrest
    have hl := hrequests l List.mem_cons_self
    cases l with
    | call samples inputSamples discontinuity =>
      obtain ⟨hpull, hstream⟩ := startPush_frame hu
      rw [hpull, hstream] at hsteps
      rw [List.countP_cons_of_neg Bool.false_ne_true]
      exact hsteps
    | push =>
      have hpushed := h.step_push hcap hu
      rw [hpushed.pull, PullPhase.todo_congr hpushed.reader] at hsteps
      rw [List.countP_cons_of_neg Bool.false_ne_true]
      exact hsteps
    | request => cases hl
    | pull =>
      have htodo := (h.step_pull hcap hu).todo
      rw [List.countP_cons_of_pos rfl]
      omega

theorem Inv.push_todo_le (h : s.Inv capacity) :
    s.push.todo capacity s.stream.writer ≤ 2 * capacity + 18 := by
  have hok := h.push
  have hfits := h.stream.fits
  have hle := h.stream.received_le
  cases hpush : s.push with
  | fill count samples =>
    rw [hpush] at hok
    have hlength : samples.length ≤ capacity := hok.2
    show capacity + samples.length + 18 ≤ _
    omega
  | filling samples =>
    rw [hpush] at hok
    have hlength : samples.length ≤ capacity := hok.2
    have hleft := s.stream.writer.left_le
    show s.stream.writer.left + samples.length + 17 ≤ _
    omega
  | write call rest =>
    rw [hpush] at hok
    have hlength : rest.length ≤ capacity := hok.2.1
    have hafter := call.after_le
    show rest.length + call.after + 2 ≤ _
    omega
  | writing call rest =>
    rw [hpush] at hok
    have hlength : rest.length ≤ capacity := hok.1
    have hafter := call.after_le
    have hleft := s.stream.writer.left_le
    show s.stream.writer.left + (rest.length - s.stream.writer.samples.length) + call.after + 1 ≤ _
    omega
  | lock rest =>
    rw [hpush] at hok
    have hlength : rest.length ≤ capacity := hok.2
    show rest.length + 14 ≤ _
    omega
  | drop rest =>
    rw [hpush] at hok
    have hlength : rest.length ≤ capacity := hok.2.1
    show rest.length + 11 ≤ _
    omega
  | dropping rest =>
    rw [hpush] at hok
    have hlength : rest.length ≤ capacity := hok.2.1
    show rest.length + 10 ≤ _
    omega
  | unlock rest =>
    rw [hpush] at hok
    have hlength : rest.length ≤ capacity := hok.2.1
    show rest.length + 9 ≤ _
    omega
  | idle | limit | check | lockCheck | recheck | skipping | unlockCheck =>
    rw [PushPhase.todo]
    omega

theorem Inv.pull_todo_le (h : s.Inv capacity) :
    s.pull.todo capacity s.stream.reader ≤ capacity + 6 := by
  have hok := h.pull
  have hfits := h.stream.fits
  cases hpull : s.pull with
  | reading count =>
    rw [hpull] at hok
    obtain ⟨tail, n, out, hreader⟩ := hok
    have hle := (h.stream.reader _ _ _ hreader).2.1
    rw [hreader]
    show n - out.length + 3 ≤ _
    omega
  | lock => exact le_rfl
  | idle | check | read | unlockSilent | unlock | fill =>
    rw [PullPhase.todo]
    omega

/-- **The player gets what is pushed**, in this order and with silence between, however the two
threads interleave. A push that has ended has sent all of its samples, if need be in the place of
older ones, and its assertions about what it skips and writes never fail; a thread waits only for
the mutex while the other one has it, and never do both wait. -/
theorem plays_what_is_pushed {targetBuffering sampleRate : ℕ} {memory : Bool}
    {s₀ s : AudioRegulator α} {steps : List (RegulatorStep α)}
    (hcap : targetBuffering + sampleRate < 2 ^ 31)
    (hinit : init targetBuffering sampleRate memory = some s₀)
    (h : exec (step silence) s₀ steps = some s) :
    s.output.reduceOption.Sublist s.pushed ∧ (s.push = .idle → s.stream.sent = s.pushed) ∧
    (s.push.holds = true → s.pull.holds = false) ∧
    (s.push ≠ .idle →
      (s.step silence .push).isSome ∨ s.push.waits = true ∧ s.pull.holds = true) ∧
    (s.pull ≠ .idle →
      (s.step silence .pull).isSome ∨ s.pull.waits = true ∧ s.push.holds = true) ∧
    (s.push ≠ .idle ∨ s.pull ≠ .idle →
      (s.step silence .push).isSome ∨ (s.step silence .pull).isSome) := by
  have hinv : s.Inv (targetBuffering + sampleRate) := (inv_init hcap hinit).exec hcap h
  refine ⟨hinv.output_sublist, fun hidle ↦ ?_, hinv.mutex,
    hinv.push_goes_on silence hcap, hinv.pull_goes_on silence hcap, hinv.goes_on silence hcap⟩
  have hpushed := hinv.pushed
  rw [hidle] at hpushed
  exact (List.append_nil _).symm.trans hpushed

/-- Of two samples one is skipped, and the other one is played with silence behind it. -/
theorem plays_what_is_pushed_skip :
    ∃ s₀ s : AudioRegulator ℕ, init 1 1 true = some s₀ ∧
      exec (step 0) s₀ (.call [1, 2] 2 false :: List.replicate 10 .push ++
        .request 2 :: List.replicate 7 .pull) = some s ∧
      s.output = [some 2, none] ∧ s.pushed = [1, 2] ∧ s.output.reduceOption.Sublist s.pushed := by
  have hinit : init 1 1 true = some (⟨⟨⟨3, [none, none, none], 0, 0⟩, .idle, .idle, [], []⟩, 1, 1,
      false, .idle, .idle, [], []⟩ : AudioRegulator ℕ) := by decide
  have hwrite : exec (step 0) (⟨⟨⟨3, [none, none, none], 0, 0⟩, .idle, .idle, [], []⟩, 1, 1,
      false, .idle, .idle, [], []⟩ : AudioRegulator ℕ)
      (.call [1, 2] 2 false :: List.replicate 4 .push) =
      some ⟨⟨⟨3, [some 1, some 2, none], 2, 0⟩, .idle, .idle, [1, 2], []⟩, 1, 1, false, .limit,
        .idle, [1, 2], []⟩ := by decide
  have hskip : exec (step 0) (⟨⟨⟨3, [some 1, some 2, none], 2, 0⟩, .idle, .idle, [1, 2], []⟩, 1, 1,
      false, .limit, .idle, [1, 2], []⟩ : AudioRegulator ℕ) (List.replicate 6 .push) =
      some ⟨⟨⟨3, [some 1, some 2, none], 2, 1⟩, .idle, .idle, [1, 2], [none]⟩, 1, 1, false, .idle,
        .idle, [1, 2], []⟩ := by decide
  have hread : exec (step 0) (⟨⟨⟨3, [some 1, some 2, none], 2, 1⟩, .idle, .idle, [1, 2], [none]⟩,
      1, 1, false, .idle, .idle, [1, 2], []⟩ : AudioRegulator ℕ)
      (.request 2 :: List.replicate 4 .pull) =
      some ⟨⟨⟨3, [some 1, some 2, none], 2, 1⟩, .idle, .reading 1 1 (some [2]), [1, 2], [none]⟩,
        1, 1, false, .idle, .reading 2, [1, 2], []⟩ := by decide
  have hplay : exec (step 0) (⟨⟨⟨3, [some 1, some 2, none], 2, 1⟩, .idle, .reading 1 1 (some [2]),
      [1, 2], [none]⟩, 1, 1, false, .idle, .reading 2, [1, 2], []⟩ : AudioRegulator ℕ)
      (List.replicate 3 .pull) =
      some ⟨⟨⟨3, [some 1, some 2, none], 2, 2⟩, .idle, .idle, [1, 2], [none, some 2]⟩, 1, 1, true,
        .idle, .idle, [1, 2], [some 2, none]⟩ := by decide
  have hrun := exec_append_eq_some_iff.2 ⟨_, exec_append_eq_some_iff.2 ⟨_, hwrite, hskip⟩,
    exec_append_eq_some_iff.2 ⟨_, hread, hplay⟩⟩
  exact ⟨_, _, hinit, hrun, rfl, rfl, (plays_what_is_pushed (by decide) hinit hrun).1⟩

/-- **A call ends.** Whatever the other thread does, a push takes at most twice the capacity and
eighteen steps of its own thread, and a pull the capacity and six. -/
theorem calls_end {targetBuffering sampleRate : ℕ} {memory : Bool} {s₀ s t : AudioRegulator α}
    {steps more : List (RegulatorStep α)} (hcap : targetBuffering + sampleRate < 2 ^ 31)
    (hinit : init targetBuffering sampleRate memory = some s₀)
    (h : exec (step silence) s₀ steps = some s) (hmore : exec (step silence) s more = some t) :
    ((∀ l ∈ more, l.isCall = false) →
      more.countP RegulatorStep.isPush ≤ 2 * (targetBuffering + sampleRate) + 18) ∧
    ((∀ l ∈ more, l.isRequest = false) →
      more.countP RegulatorStep.isPull ≤ targetBuffering + sampleRate + 6) := by
  have hinv : s.Inv (targetBuffering + sampleRate) := (inv_init hcap hinit).exec hcap h
  constructor
  · intro hcalls
    have hsteps := hinv.push_steps hcap hcalls hmore
    exact (Nat.le_add_right _ _).trans (hsteps.trans hinv.push_todo_le)
  · intro hrequests
    have hsteps := hinv.pull_steps hcap hrequests hmore
    exact (Nat.le_add_right _ _).trans (hsteps.trans hinv.pull_todo_le)

/-- A push of a sample that fits takes five steps. -/
theorem calls_end_fits :
    ∃ s₀ s t : AudioRegulator ℕ, init 1 1 true = some s₀ ∧
      exec (step 0) s₀ [.call [1] 1 false] = some s ∧
      exec (step 0) s (List.replicate 5 .push) = some t ∧ t.push = .idle ∧
      (List.replicate 5 .push).countP (RegulatorStep.isPush (α := ℕ)) ≤ 2 * (1 + 1) + 18 := by
  have hinit : init 1 1 true = some (⟨⟨⟨3, [none, none, none], 0, 0⟩, .idle, .idle, [], []⟩, 1, 1,
      false, .idle, .idle, [], []⟩ : AudioRegulator ℕ) := by decide
  have hcall : exec (step 0) (⟨⟨⟨3, [none, none, none], 0, 0⟩, .idle, .idle, [], []⟩, 1, 1,
      false, .idle, .idle, [], []⟩ : AudioRegulator ℕ) [.call [1] 1 false] =
      some ⟨⟨⟨3, [none, none, none], 0, 0⟩, .idle, .idle, [], []⟩, 1, 1, false,
        .write .first [1], .idle, [1], []⟩ := by decide
  have hmore : exec (step 0) (⟨⟨⟨3, [none, none, none], 0, 0⟩, .idle, .idle, [], []⟩, 1, 1, false,
      .write .first [1], .idle, [1], []⟩ : AudioRegulator ℕ) (List.replicate 5 .push) =
      some ⟨⟨⟨3, [some 1, none, none], 1, 0⟩, .idle, .idle, [1], []⟩, 1, 1, false, .idle, .idle,
        [1], []⟩ := by decide
  exact ⟨_, _, _, hinit, hcall, hmore, rfl,
    (calls_end (by decide) hinit hcall hmore).1 (by decide)⟩

end AudioRegulator

end AllRelay.Client
