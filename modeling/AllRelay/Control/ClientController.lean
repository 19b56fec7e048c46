import AllRelay.Control.ClientSerializer
import AllRelay.Library.LabelledSystem

/-!
# The desktop client's control thread

The threads of the desktop client hand their control messages to a queue (`sc_controller_push_msg`),
and one thread writes them to the control socket (`run_controller`). Above a limit the queue refuses
a message, unless it is one that must not be dropped. A new size of the display does not go through
the queue: it is kept in a field of its own, where a later one replaces it, and is sent first.

`Session` is the controller with a record of what happened to it. `Session.Inv` holds over any
interleaving of the callers with the thread, where the socket may stop accepting bytes anywhere, the
thread may wake for no reason and an allocation may fail.
-/

namespace AllRelay.Client

open LabelledSystem Wire Encoders

/-! ### The controller -/

/-- Where the thread of `run_controller` is. -/
inductive Thread where
  /-- At the head of the loop. -/
  | running
  /-- In `sc_cond_wait`. -/
  | waiting
  /-- With a message in hand, in `process_msg`. -/
  | sending (msg : ControlMsg)
  /-- It returned, and reported this error flag to `on_ended`. -/
  | ended (error : Bool)
deriving DecidableEq, Repr

/-- The thread is woken if it waits. -/
def Thread.wake : Thread → Thread
  | .waiting => .running
  | thread => thread

/-- `struct sc_controller`, its thread, and the bytes its socket has accepted. -/
structure Controller where
  /-- `queue`, oldest first. -/
  queue : List ControlMsg
  /-- `resize_display.width`; zero if there is no size to send. -/
  width : UInt16
  /-- `resize_display.height`. -/
  height : UInt16
  /-- `stopped`. -/
  stopped : Bool
  /-- The thread. -/
  thread : Thread
  /-- What the socket has accepted. -/
  socket : List UInt8
  /-- An assertion failed and ended the process. -/
  aborted : Bool
deriving DecidableEq, Repr

namespace Controller

/-- `SC_CONTROL_MSG_QUEUE_LIMIT`. -/
def queueLimit : ℕ := 60

/-- `sc_controller_init` and `sc_controller_start`. -/
def init : Controller :=
  ⟨[], 0, 0, false, .running, [], false⟩

/-- `assert`. -/
def abort (c : Controller) : Controller :=
  { c with aborted := true }

/-- `sc_cond_signal(&controller->msg_cond)`. -/
def signal (c : Controller) : Controller :=
  { c with thread := c.thread.wake }

/-- `sc_controller_push_msg`, with what it returns; `memory` is false if `sc_vecdeque_push` finds no
memory to grow. -/
def pushMsg (c : Controller) (msg : ControlMsg) (memory : Bool) : Controller × Bool :=
  if msg.type = 21 then (c.abort, false)
  else if c.queue.length < queueLimit then
    let wasEmpty := c.queue = []
    let c := { c with queue := c.queue ++ [msg] }
    (if wasEmpty then c.signal else c, true)
  else if !msg.isDroppable && memory then ({ c with queue := c.queue ++ [msg] }, true)
  else (c, false)

/-- `sc_controller_resize_display`. -/
def resizeDisplay (c : Controller) (width height : UInt16) : Controller :=
  if width = 0 ∨ height = 0 then c.abort
  else
    let wasSet := c.width != 0
    let c := { c with width := width, height := height }
    if wasSet then c else c.signal

/-- `sc_controller_stop`. -/
def stop (c : Controller) : Controller :=
  signal { c with stopped := true }

/-- The loop of `run_controller` up to `process_msg`. -/
def loop (c : Controller) : Option Controller :=
  if c.thread = .running then
    if c.stopped then some { c with thread := .ended false }
    else if c.width ≠ 0 then
      some { c with
        width := 0
        height := 0
        thread := .sending (.resizeDisplay c.width c.height) }
    else
      match c.queue with
      | [] => some { c with thread := .waiting }
      | msg :: queue => some { c with queue := queue, thread := .sending msg }
  else none

/-- `process_msg` and the rest of the loop, where the socket accepts `accepted` bytes. -/
def processMsg (c : Controller) (accepted : ℕ) : Option Controller :=
  match c.thread with
  | .sending msg =>
    match msg.serialize with
    | none => some c.abort
    | some bytes =>
      if bytes = [] then some { c with thread := .ended true }
      else if bytes.length ≤ accepted then
        some { c with thread := .running, socket := c.socket ++ bytes }
      else some { c with thread := .ended false, socket := c.socket ++ bytes.take accepted }
  | _ => none

/-- The size that waits to be sent. -/
def pending (c : Controller) : List (UInt16 × UInt16) :=
  if c.width = 0 then [] else [(c.width, c.height)]

end Controller

/-! ### What happened -/

/-- A controller, and what happened to it. -/
structure Session where
  /-- The controller. -/
  controller : Controller
  /-- The messages for which `sc_controller_push_msg` returned true, oldest first. -/
  accepted : List ControlMsg
  /-- The others, and whether there was memory. -/
  refused : List (ControlMsg × Bool)
  /-- The sizes of the display that were asked for, oldest first. -/
  requested : List (UInt16 × UInt16)
  /-- The messages that the thread took to send, oldest first. -/
  taken : List ControlMsg
deriving DecidableEq, Repr

/-- What the threads and the environment do. -/
inductive Label where
  /-- A call of `sc_controller_push_msg`. -/
  | push (msg : ControlMsg) (memory : Bool)
  /-- A call of `sc_controller_resize_display`. -/
  | resizeDisplay (width height : UInt16)
  /-- A call of `sc_controller_stop`. -/
  | stop
  /-- `sc_cond_wait` returns without a signal. -/
  | wake
  /-- The thread takes its next message, waits or stops. -/
  | loop
  /-- The thread sends its message, and the socket accepts this many bytes. -/
  | send (accepted : ℕ)
deriving DecidableEq, Repr

/-- What a caller may ask for: a message whose fields are in range, and a size that is not empty. -/
def Label.Ok : Label → Prop
  | .push msg _ => msg.type ≠ 21 ∧ msg.InRange ∧ msg.Fractions
  | .resizeDisplay width height => width ≠ 0 ∧ height ≠ 0
  | _ => True

/-- The size in a message that asks for one. -/
def ControlMsg.size? : ControlMsg → Option (UInt16 × UInt16)
  | .resizeDisplay width height => some (width, height)
  | _ => none

namespace Session

/-- Before the first call. -/
def init : Session :=
  ⟨.init, [], [], [], []⟩

/-- One step of a thread. -/
def step (s : Session) (l : Label) : Option Session :=
  if s.controller.aborted then none
  else
    match l with
    | .push msg memory =>
      let (c, pushed) := s.controller.pushMsg msg memory
      if pushed then some { s with controller := c, accepted := s.accepted ++ [msg] }
      else some { s with controller := c, refused := s.refused ++ [(msg, memory)] }
    | .resizeDisplay width height =>
      some { s with
        controller := s.controller.resizeDisplay width height
        requested := s.requested ++ [(width, height)] }
    | .stop => some { s with controller := s.controller.stop }
    | .wake =>
      if s.controller.thread = .waiting then
        some { s with controller := { s.controller with thread := .running } }
      else none
    | .loop => do
      let c ← s.controller.loop
      match c.thread with
      | .sending msg => return { s with controller := c, taken := s.taken ++ [msg] }
      | _ => return { s with controller := c }
    | .send accepted => do return { s with controller := ← s.controller.processMsg accepted }

/-- The bytes of messages. -/
def encodings (msgs : List ControlMsg) : List UInt8 :=
  msgs.flatMap fun msg ↦ msg.serialize.getD []

/-- What the socket carries: whole messages, and nothing else unless the thread ended in the middle
of one. -/
inductive Carries : Thread → List ControlMsg → List UInt8 → Prop
  | idle {thread : Thread} {msgs : List ControlMsg} (h : ∀ msg, thread ≠ .sending msg) :
    Carries thread msgs (encodings msgs)
  | sending {msgs : List ControlMsg} (msg : ControlMsg) :
    Carries (.sending msg) (msgs ++ [msg]) (encodings msgs)
  | cut {msgs : List ControlMsg} {msg : ControlMsg} {bytes part : List UInt8}
    (h : msg.serialize = some bytes) (hpart : part <+: bytes) (hne : part ≠ bytes) :
    Carries (.ended false) (msgs ++ [msg]) (encodings msgs ++ part)

/-- The invariant. -/
structure Inv (s : Session) : Prop where
  /-- No assertion fails. -/
  alive : s.controller.aborted = false
  /-- The thread does not sleep over work. -/
  awake : s.controller.thread = .waiting →
    s.controller.queue = [] ∧ s.controller.width = 0 ∧ s.controller.stopped = false
  /-- What was accepted is what was taken and what waits. -/
  fifo : s.taken.filter (·.size?.isNone) ++ s.controller.queue = s.accepted
  /-- What was accepted is in range. -/
  ok : ∀ msg ∈ s.accepted, msg.type ≠ 21 ∧ msg.InRange ∧ msg.Fractions
  /-- No more than the limit of messages that may be dropped wait. -/
  bound : (s.controller.queue.filter (·.isDroppable)).length ≤ Controller.queueLimit
  /-- Only messages that may be dropped are refused. -/
  refused : ∀ p ∈ s.refused, p.1.isDroppable = true ∨ p.2 = false
  /-- The sizes sent are sizes asked for, in this order. -/
  sublist : (s.taken.filterMap ControlMsg.size? ++ s.controller.pending).Sublist s.requested
  /-- The last size asked for is the last one sent, or waits. -/
  latest : (s.taken.filterMap ControlMsg.size? ++ s.controller.pending).getLast? =
    s.requested.getLast?
  /-- The socket carries what was taken. -/
  carries : Carries s.controller.thread s.taken s.controller.socket

theorem Inv.init : Session.init.Inv where
  alive := rfl
  awake h := nomatch h
  fifo := rfl
  ok _ h := nomatch h
  bound := Nat.zero_le _
  refused _ h := nomatch h
  sublist := List.Sublist.slnil
  latest := rfl
  carries := .idle fun _ h ↦ nomatch h

/-! ### Threads -/

theorem wake_ne_waiting (thread : Thread) : thread.wake ≠ .waiting := by
  cases thread <;> simp [Thread.wake]

/-- A thread at the head of its loop has sent all it took. -/
theorem Carries.eq_of_running {msgs : List ControlMsg} {bytes : List UInt8}
    (h : Carries .running msgs bytes) : bytes = encodings msgs := by
  cases h
  rfl

/-- A thread with a message in hand has sent all it took before. -/
theorem Carries.of_sending {msg : ControlMsg} {taken : List ControlMsg} {bytes : List UInt8}
    (h : Carries (.sending msg) taken bytes) :
    ∃ msgs, taken = msgs ++ [msg] ∧ bytes = encodings msgs := by
  cases h with
  | idle h => exact absurd rfl (h msg)
  | sending => exact ⟨_, rfl, rfl⟩

/-- Waking does not change what the socket carries. -/
theorem Carries.wake {thread : Thread} {msgs : List ControlMsg} {bytes : List UInt8}
    (h : Carries thread msgs bytes) : Carries thread.wake msgs bytes := by
  cases thread with
  | waiting =>
    cases h
    exact .idle fun msg ↦ by simp [Thread.wake]
  | running | sending | ended => exact h

/-! ### Steps -/

/-- **What a push does**: the message joins the queue, and a thread that sleeps over an empty queue
is woken; or nothing happens, to a message that may be dropped. -/
theorem pushMsg_cases (c : Controller) {msg : ControlMsg} (hmsg : msg.type ≠ 21) (memory : Bool) :
    (∃ thread, (thread = c.thread.wake ∨ thread = c.thread ∧ c.queue ≠ []) ∧
      (msg.isDroppable = true → c.queue.length < Controller.queueLimit) ∧
      c.pushMsg msg memory =
        ({ c with queue := c.queue ++ [msg], thread := thread }, true)) ∨
    (msg.isDroppable = true ∨ memory = false) ∧ c.pushMsg msg memory = (c, false) := by
  rw [Controller.pushMsg, if_neg hmsg]
  split
  · next hroom =>
    left
    by_cases hnil : c.queue = []
    · exact ⟨_, .inl rfl, fun _ ↦ hroom, by simp only [hnil, if_true, Controller.signal]⟩
    · exact ⟨_, .inr ⟨rfl, hnil⟩, fun _ ↦ hroom, by simp only [hnil, if_false]⟩
  · next hfull =>
    have hne : c.queue ≠ [] := by
      intro hnil
      rw [hnil] at hfull
      exact hfull (by decide)
    split
    · next hkeep =>
      simp only [Bool.and_eq_true, Bool.not_eq_true'] at hkeep
      refine .inl ⟨_, .inr ⟨rfl, hne⟩, fun hdrop ↦ ?_, rfl⟩
      rw [hkeep.1] at hdrop
      exact absurd hdrop Bool.false_ne_true
    · next hdropped =>
      simp only [Bool.and_eq_true, Bool.not_eq_true', not_and_or, Bool.not_eq_false,
        Bool.not_eq_true] at hdropped
      exact .inr ⟨hdropped, rfl⟩

/-- A message joins the queue, and the thread does not sleep. -/
theorem Inv.enqueue {s : Session} (h : s.Inv) {msg : ControlMsg} {thread : Thread}
    (hok : msg.type ≠ 21 ∧ msg.InRange ∧ msg.Fractions) (hthread : thread ≠ .waiting)
    (hcarries : Carries thread s.taken s.controller.socket)
    (hroom : msg.isDroppable = true → s.controller.queue.length < Controller.queueLimit) :
    Inv { s with
      controller := { s.controller with queue := s.controller.queue ++ [msg], thread := thread }
      accepted := s.accepted ++ [msg] } where
  alive := h.alive
  awake hwaiting := absurd hwaiting hthread
  fifo := by
    show s.taken.filter _ ++ (s.controller.queue ++ [msg]) = s.accepted ++ [msg]
    rw [← List.append_assoc, h.fifo]
  ok m hm := by
    rcases List.mem_append.1 hm with hm | hm
    · exact h.ok m hm
    · exact List.mem_singleton.1 hm ▸ hok
  bound := by
    show ((s.controller.queue ++ [msg]).filter _).length ≤ _
    rw [List.filter_append, List.length_append]
    cases hdrop : msg.isDroppable with
    | true =>
      have hlen := List.length_filter_le (·.isDroppable) s.controller.queue
      have hlt := hroom hdrop
      rw [List.filter_cons_of_pos hdrop]
      simp only [List.filter_nil, List.length_cons, List.length_nil]
      omega
    | false =>
      rw [List.filter_cons_of_neg (by rw [hdrop]; decide)]
      exact h.bound
  refused := h.refused
  sublist := h.sublist
  latest := h.latest
  carries := hcarries

/-- A call of `sc_controller_push_msg`. -/
theorem Inv.push {s t : Session} (h : s.Inv) {msg : ControlMsg} {memory : Bool}
    (hok : msg.type ≠ 21 ∧ msg.InRange ∧ msg.Fractions)
    (hstep : s.step (.push msg memory) = some t) : t.Inv := by
  rw [step, h.alive, if_neg Bool.false_ne_true] at hstep
  obtain ⟨thread, hthread, hroom, heq⟩ | ⟨hdrop, heq⟩ :=
    pushMsg_cases s.controller hok.1 memory
  · simp only [heq, if_true, Option.some.injEq] at hstep
    subst hstep
    obtain rfl | ⟨rfl, hne⟩ := hthread
    · exact h.enqueue hok (wake_ne_waiting _) h.carries.wake hroom
    · exact h.enqueue hok (fun hw ↦ hne (h.awake hw).1) h.carries hroom
  · simp only [heq, Bool.false_eq_true, if_false, Option.some.injEq] at hstep
    subst hstep
    refine { h with refused := fun p hp ↦ ?_ }
    rcases List.mem_append.1 hp with hp | hp
    · exact h.refused p hp
    · obtain rfl := List.mem_singleton.1 hp
      exact hdrop

/-- **What a new size does**: it replaces the one that waits, and a thread that sleeps without one
is woken. -/
theorem resizeDisplay_eq (c : Controller) {width height : UInt16} (hwidth : width ≠ 0)
    (hheight : height ≠ 0) :
    c.resizeDisplay width height =
      { c with
        width := width
        height := height
        thread := if c.width = 0 then c.thread.wake else c.thread } := by
  rw [Controller.resizeDisplay, if_neg (not_or.2 ⟨hwidth, hheight⟩)]
  by_cases hzero : c.width = 0
  · simp [hzero, Controller.signal]
  · simp [hzero]

/-- A call of `sc_controller_resize_display`. -/
theorem Inv.resizeDisplay {s t : Session} (h : s.Inv) {width height : UInt16} (hwidth : width ≠ 0)
    (hheight : height ≠ 0) (hstep : s.step (.resizeDisplay width height) = some t) : t.Inv := by
  rw [step, h.alive, if_neg Bool.false_ne_true] at hstep
  simp only [resizeDisplay_eq s.controller hwidth hheight, Option.some.injEq] at hstep
  subst hstep
  have hsent : (s.taken.filterMap ControlMsg.size?).Sublist s.requested :=
    (List.sublist_append_left _ _).trans h.sublist
  exact
    { h with
      awake := fun hwaiting ↦ by
        by_cases hzero : s.controller.width = 0
        · rw [if_pos hzero] at hwaiting
          exact absurd hwaiting (wake_ne_waiting _)
        · rw [if_neg hzero] at hwaiting
          exact absurd (h.awake hwaiting).2.1 hzero
      sublist := by
        rw [Controller.pending, if_neg hwidth]
        exact hsent.append (List.Sublist.refl _)
      latest := by
        rw [Controller.pending, if_neg hwidth]
        simp
      carries := by
        by_cases hzero : s.controller.width = 0
        · rw [if_pos hzero]
          exact h.carries.wake
        · rw [if_neg hzero]
          exact h.carries }

/-- A call of `sc_controller_stop`. -/
theorem Inv.stop {s t : Session} (h : s.Inv) (hstep : s.step .stop = some t) : t.Inv := by
  rw [step, h.alive, if_neg Bool.false_ne_true] at hstep
  obtain rfl := Option.some.inj hstep
  exact
    { h with
      awake := fun hwaiting ↦ absurd hwaiting (wake_ne_waiting _)
      carries := h.carries.wake }

/-- `sc_cond_wait` returns. -/
theorem Inv.wake {s t : Session} (h : s.Inv) (hstep : s.step .wake = some t) : t.Inv := by
  rw [step, h.alive, if_neg Bool.false_ne_true] at hstep
  obtain ⟨hwaiting, heq⟩ := Option.ite_none_right_eq_some.1 hstep
  obtain rfl := Option.some.inj heq
  have hcarries := h.carries.wake
  rw [hwaiting] at hcarries
  exact { h with awake := (fun hrunning ↦ nomatch hrunning), carries := hcarries }

theorem size?_eq_none_iff (msg : ControlMsg) : msg.size? = none ↔ msg.type ≠ 21 := by
  cases msg <;> simp [ControlMsg.size?, ControlMsg.type]

/-- A size is always in range. -/
theorem ok_of_type_eq {msg : ControlMsg} (h : msg.type = 21) : msg.InRange ∧ msg.Fractions := by
  cases msg with
  | resizeDisplay => exact ⟨trivial, trivial⟩
  | _ => simp [ControlMsg.type] at h

/-- What the thread takes is in range. -/
theorem Inv.mem_taken {s : Session} (h : s.Inv) {msg : ControlMsg} (hmsg : msg ∈ s.taken) :
    msg.InRange ∧ msg.Fractions := by
  by_cases hsize : msg.size? = none
  · have hmem : msg ∈ s.taken.filter (·.size?.isNone) :=
      List.mem_filter.2 ⟨hmsg, by rw [hsize]; rfl⟩
    exact (h.ok msg (h.fifo ▸ List.mem_append_left _ hmem)).2
  · rw [size?_eq_none_iff, not_not] at hsize
    exact ok_of_type_eq hsize

/-- **What a pass of the loop does**: the thread stops, sends a size, waits or sends a message. -/
theorem loop_cases {c c' : Controller} (h : c.loop = some c') :
    c.thread = .running ∧
      (c' = { c with thread := .ended false } ∨
        c.stopped = false ∧ c.width ≠ 0 ∧
          c' = { c with
            width := 0
            height := 0
            thread := .sending (.resizeDisplay c.width c.height) } ∨
        c.stopped = false ∧ c.width = 0 ∧ c.queue = [] ∧ c' = { c with thread := .waiting } ∨
        c.width = 0 ∧ ∃ msg queue, c.queue = msg :: queue ∧
          c' = { c with queue := queue, thread := .sending msg }) := by
  rw [Controller.loop] at h
  obtain ⟨hrunning, h⟩ := Option.ite_none_right_eq_some.1 h
  refine ⟨hrunning, ?_⟩
  split at h
  · exact .inl (Option.some.inj h).symm
  · next hstopped =>
    rw [Bool.not_eq_true] at hstopped
    split at h
    · next hwidth => exact .inr (.inl ⟨hstopped, hwidth, (Option.some.inj h).symm⟩)
    · next hwidth =>
      rw [not_not] at hwidth
      split at h
      · next hqueue =>
        exact .inr (.inr (.inl ⟨hstopped, hwidth, hqueue, (Option.some.inj h).symm⟩))
      · next msg queue hqueue =>
        exact .inr (.inr (.inr ⟨hwidth, msg, queue, hqueue, (Option.some.inj h).symm⟩))

/-- A pass of the loop of `run_controller`. -/
theorem Inv.loop {s t : Session} (h : s.Inv) (hstep : s.step .loop = some t) : t.Inv := by
  rw [step, h.alive, if_neg Bool.false_ne_true] at hstep
  obtain ⟨c, hc, heq⟩ := Option.bind_eq_some_iff.1 hstep
  obtain ⟨hrunning, hcases⟩ := loop_cases hc
  have hsocket := h.carries
  rw [hrunning] at hsocket
  replace hsocket := hsocket.eq_of_running
  obtain rfl | ⟨-, hwidth, rfl⟩ | ⟨hstopped, hwidth, hqueue, rfl⟩ |
    ⟨hwidth, msg, queue, hqueue, rfl⟩ := hcases
  · obtain rfl := Option.some.inj heq
    refine { h with awake := (fun hended ↦ nomatch hended), carries := ?_ }
    rw [hsocket]
    exact .idle fun _ hended ↦ nomatch hended
  · obtain rfl := Option.some.inj heq
    have hpending : s.controller.pending = [(s.controller.width, s.controller.height)] :=
      if_neg hwidth
    have hsizes : (s.taken ++ [ControlMsg.resizeDisplay s.controller.width
        s.controller.height]).filterMap ControlMsg.size? ++ [] =
          s.taken.filterMap ControlMsg.size? ++ s.controller.pending := by
      rw [hpending, List.append_nil, List.filterMap_append]
      rfl
    exact
      { h with
        awake := fun hsending ↦ nomatch hsending
        fifo := by
          rw [List.filter_append, List.filter_cons_of_neg (by simp [ControlMsg.size?]),
            List.filter_nil, List.append_nil]
          exact h.fifo
        sublist := hsizes ▸ h.sublist
        latest := hsizes ▸ h.latest
        carries := by
          rw [hsocket]
          exact .sending _ }
  · obtain rfl := Option.some.inj heq
    refine { h with awake := (fun _ ↦ ⟨hqueue, hwidth, hstopped⟩), carries := ?_ }
    rw [hsocket]
    exact .idle fun _ hwaiting ↦ nomatch hwaiting
  · obtain rfl := Option.some.inj heq
    have hmem : msg ∈ s.accepted := by
      rw [← h.fifo, hqueue]
      exact List.mem_append_right _ List.mem_cons_self
    have hsize : msg.size? = none := (size?_eq_none_iff msg).2 (h.ok msg hmem).1
    have hsizes : (s.taken ++ [msg]).filterMap ControlMsg.size? =
        s.taken.filterMap ControlMsg.size? := by
      rw [List.filterMap_append, List.filterMap_cons_none hsize, List.filterMap_nil,
        List.append_nil]
    exact
      { h with
        awake := fun hsending ↦ nomatch hsending
        fifo := by
          rw [List.filter_append, List.filter_cons_of_pos (by rw [hsize]; rfl), List.filter_nil,
            List.append_assoc]
          rw [← h.fifo, hqueue]
          rfl
        bound := by
          refine le_trans ?_ h.bound
          rw [hqueue]
          exact (List.Sublist.filter _ (List.sublist_cons_self _ _)).length_le
        sublist := by
          rw [hsizes]
          exact h.sublist
        latest := by
          rw [hsizes]
          exact h.latest
        carries := by
          rw [hsocket]
          exact .sending _ }

theorem encodings_append_singleton (msgs : List ControlMsg) {msg : ControlMsg}
    {bytes : List UInt8} (h : msg.serialize = some bytes) :
    encodings (msgs ++ [msg]) = encodings msgs ++ bytes := by
  rw [encodings, List.flatMap_append, List.flatMap_singleton, h]
  rfl

theorem serialize_ne_nil {msg : ControlMsg} {bytes : List UInt8} (h : msg.serialize = some bytes) :
    bytes ≠ [] := by
  obtain ⟨payload, -, rfl⟩ := serialize_eq_some h
  exact List.cons_ne_nil _ _

/-- `process_msg`. -/
theorem Inv.send {s t : Session} (h : s.Inv) {accepted : ℕ}
    (hstep : s.step (.send accepted) = some t) : t.Inv := by
  rw [step, h.alive, if_neg Bool.false_ne_true] at hstep
  obtain ⟨c, hc, heq⟩ := Option.bind_eq_some_iff.1 hstep
  obtain rfl := Option.some.inj heq
  rw [Controller.processMsg] at hc
  split at hc
  · next msg hsending =>
    have hcarries := h.carries
    rw [hsending] at hcarries
    obtain ⟨msgs, htaken, hsocket⟩ := hcarries.of_sending
    have hmem : msg ∈ s.taken := by
      rw [htaken]
      simp
    obtain ⟨hrange, hfractions⟩ := h.mem_taken hmem
    obtain ⟨bytes, hbytes⟩ :=
      Option.isSome_iff_exists.1 ((serialize_isSome_iff hrange).2 hfractions)
    simp only [hbytes, if_neg (serialize_ne_nil hbytes)] at hc
    split at hc
    · obtain rfl := Option.some.inj hc
      refine { h with awake := (fun hrunning ↦ nomatch hrunning), carries := ?_ }
      rw [hsocket, htaken, ← encodings_append_singleton msgs hbytes]
      exact .idle fun _ hrunning ↦ nomatch hrunning
    · next hcut =>
      obtain rfl := Option.some.inj hc
      refine { h with awake := (fun hended ↦ nomatch hended), carries := ?_ }
      rw [hsocket, htaken]
      refine .cut hbytes (List.take_prefix _ _) fun hwhole ↦ hcut ?_
      rw [← hwhole, List.length_take]
      exact Nat.min_le_left _ _
  · cases hc

/-- **The invariant is kept** by every step. -/
theorem Inv.step {s t : Session} (h : s.Inv) {l : Label} (hok : l.Ok)
    (hstep : s.step l = some t) : t.Inv := by
  cases l with
  | push => exact h.push hok hstep
  | resizeDisplay => exact h.resizeDisplay hok.1 hok.2 hstep
  | stop => exact h.stop hstep
  | wake => exact h.wake hstep
  | loop => exact h.loop hstep
  | send => exact h.send hstep

/-- The invariant holds in every run. -/
theorem Inv.exec {labels : List Label} {s : Session} (hok : ∀ l ∈ labels, l.Ok)
    (h : exec Session.step .init labels = some s) : s.Inv := by
  have hkeep : ∀ (s : Session) (l : Label) (t : Session), l.Ok → s.Inv → s.step l = some t →
      t.Inv := fun _ _ _ hl hs hstep ↦ hs.step hl hstep
  exact exec_invariant_along hkeep (along_of_forall_mem hok) Inv.init h

/-- What was taken and what was sent only grows. -/
theorem step_grows {s t : Session} {l : Label} (hstep : s.step l = some t) :
    s.taken <+: t.taken ∧ s.controller.socket <+: t.controller.socket := by
  rw [Session.step.eq_def] at hstep
  obtain ⟨-, hstep⟩ := Option.ite_none_left_eq_some.1 hstep
  cases l with
  | push msg memory =>
    have hsocket : (s.controller.pushMsg msg memory).1.socket = s.controller.socket := by
      simp only [Controller.pushMsg]
      split_ifs <;> rfl
    dsimp only at hstep
    split at hstep <;> obtain rfl := Option.some.inj hstep
    all_goals exact ⟨List.prefix_rfl, hsocket ▸ List.prefix_rfl⟩
  | resizeDisplay width height =>
    obtain rfl := Option.some.inj hstep
    have hsocket : (s.controller.resizeDisplay width height).socket = s.controller.socket := by
      simp only [Controller.resizeDisplay]
      split_ifs <;> rfl
    exact ⟨List.prefix_rfl, hsocket ▸ List.prefix_rfl⟩
  | stop =>
    obtain rfl := Option.some.inj hstep
    exact ⟨List.prefix_rfl, List.prefix_rfl⟩
  | wake =>
    obtain ⟨-, heq⟩ := Option.ite_none_right_eq_some.1 hstep
    obtain rfl := Option.some.inj heq
    exact ⟨List.prefix_rfl, List.prefix_rfl⟩
  | loop =>
    obtain ⟨c, hc, heq⟩ := Option.bind_eq_some_iff.1 hstep
    have hsocket : c.socket = s.controller.socket := by
      obtain ⟨-, rfl | ⟨-, -, rfl⟩ | ⟨-, -, -, rfl⟩ | ⟨-, -, -, -, rfl⟩⟩ := loop_cases hc <;> rfl
    split at heq <;> obtain rfl := Option.some.inj heq
    · exact ⟨List.prefix_append _ _, hsocket ▸ List.prefix_rfl⟩
    · exact ⟨List.prefix_rfl, hsocket ▸ List.prefix_rfl⟩
  | send accepted =>
    obtain ⟨c, hc, heq⟩ := Option.bind_eq_some_iff.1 hstep
    obtain rfl := Option.some.inj heq
    refine ⟨List.prefix_rfl, ?_⟩
    rw [Controller.processMsg] at hc
    split at hc
    · split at hc
      · obtain rfl := Option.some.inj hc
        exact List.prefix_rfl
      · split at hc
        · obtain rfl := Option.some.inj hc
          exact List.prefix_rfl
        · split at hc <;> obtain rfl := Option.some.inj hc <;> exact List.prefix_append _ _
    · cases hc

/-- Only a push whose message is accepted adds to what was accepted. -/
theorem step_accepted {s t : Session} {l : Label} (hstep : s.step l = some t) :
    t.accepted =
      match l with
      | .push msg memory =>
        if (s.controller.pushMsg msg memory).2 then s.accepted ++ [msg] else s.accepted
      | _ => s.accepted := by
  rw [Session.step.eq_def] at hstep
  obtain ⟨-, hstep⟩ := Option.ite_none_left_eq_some.1 hstep
  cases l with
  | push msg memory =>
    cases hpushed : (s.controller.pushMsg msg memory).2 <;>
      simp only [hpushed, Bool.false_eq_true, if_true, if_false] at hstep ⊢ <;>
      obtain rfl := Option.some.inj hstep <;> rfl
  | resizeDisplay | stop =>
    obtain rfl := Option.some.inj hstep
    rfl
  | wake =>
    obtain ⟨-, heq⟩ := Option.ite_none_right_eq_some.1 hstep
    obtain rfl := Option.some.inj heq
    rfl
  | loop =>
    obtain ⟨c, -, heq⟩ := Option.bind_eq_some_iff.1 hstep
    split at heq <;> obtain rfl := Option.some.inj heq <;> rfl
  | send accepted =>
    obtain ⟨c, -, heq⟩ := Option.bind_eq_some_iff.1 hstep
    obtain rfl := Option.some.inj heq
    rfl

/-! ### What the phone reads -/

/-- The socket carries a part of what was taken. -/
theorem Carries.isPrefix {thread : Thread} {taken : List ControlMsg} {bytes : List UInt8}
    (h : Carries thread taken bytes) : bytes <+: encodings taken := by
  cases h with
  | idle => exact List.prefix_rfl
  | sending =>
    rw [encodings, encodings, List.flatMap_append]
    exact List.prefix_append _ _
  | cut hbytes hpart =>
    rw [encodings_append_singleton _ hbytes]
    exact (List.prefix_append_right_inj _).2 hpart

/-- Whole messages are read one after another. -/
theorem parses_encodings (msgs : List ControlMsg)
    (h : ∀ msg ∈ msgs, msg.InRange ∧ msg.Fractions) :
    ∃ messages, List.Forall₂ ControlMsg.Decodes msgs messages ∧
      Parses (ControlMessageReader.read.many msgs.length) (encodings msgs) messages := by
  have hmessages : ∃ messages, List.Forall₂ ControlMsg.Decodes msgs messages ∧
      List.Forall₂ (Parses ControlMessageReader.read)
        (msgs.map fun msg ↦ msg.serialize.getD []) messages := by
    induction msgs with
    | nil => exact ⟨[], .nil, .nil⟩
    | cons msg msgs ih =>
      obtain ⟨hrange, hfractions⟩ := h msg List.mem_cons_self
      obtain ⟨bytes, hbytes⟩ :=
        Option.isSome_iff_exists.1 ((serialize_isSome_iff hrange).2 hfractions)
      obtain ⟨-, m, hm, hparses⟩ := parses_serialize hrange hbytes
      obtain ⟨messages, hms, hps⟩ := ih fun msg hmsg ↦ h msg (List.mem_cons_of_mem _ hmsg)
      refine ⟨m :: messages, .cons hm hms, .cons ?_ hps⟩
      show Parses ControlMessageReader.read (msg.serialize.getD []) m
      rw [hbytes]
      exact hparses
  obtain ⟨messages, hdecodes, hparses⟩ := hmessages
  refine ⟨messages, hdecodes, ?_⟩
  have hmany := Parses.many hparses
  rwa [← List.flatMap_def, ← hdecodes.length_eq] at hmany

/-- **The phone reads what the thread took**, message by message; behind the last whole one it waits
for the rest of a message that the socket did not accept in full. -/
theorem Inv.reads {s : Session} (h : s.Inv) :
    ∃ whole rest messages part, s.taken = whole ++ rest ∧ rest.length ≤ 1 ∧
      (s.controller.thread = .running ∨ s.controller.thread = .waiting → rest = []) ∧
      List.Forall₂ ControlMsg.Decodes whole messages ∧
      ControlMessageReader.read.many whole.length s.controller.socket = .ok (messages, part) ∧
      ControlMessageReader.read part = .error .eof := by
  have hread : ∀ whole rest part, s.taken = whole ++ rest →
      s.controller.socket = encodings whole ++ part →
      ∃ messages, List.Forall₂ ControlMsg.Decodes whole messages ∧
        ControlMessageReader.read.many whole.length s.controller.socket =
          .ok (messages, part) := by
    intro whole rest part htaken hsocket
    obtain ⟨messages, hdecodes, hparses⟩ := parses_encodings whole fun msg hmsg ↦
      h.mem_taken (htaken ▸ List.mem_append_left _ hmsg)
    exact ⟨messages, hdecodes, hsocket ▸ hparses part⟩
  generalize hthread : s.controller.thread = thread
  generalize htaken : s.taken = taken at hread
  generalize hsocket : s.controller.socket = socket at hread
  have hcarries := h.carries
  rw [hthread, htaken, hsocket] at hcarries
  cases hcarries with
  | idle hidle =>
    obtain ⟨messages, hdecodes, hmany⟩ := hread taken [] [] (by simp) (by simp)
    exact ⟨taken, [], messages, [], by simp, by simp, by simp, hdecodes, hmany, rfl⟩
  | sending msg =>
    obtain ⟨messages, hdecodes, hmany⟩ := hread _ [msg] [] rfl (by simp)
    exact ⟨_, [msg], messages, [], rfl, by simp, by simp, hdecodes, hmany, rfl⟩
  | @cut msgs msg bytes part hbytes hpart hne =>
    obtain ⟨messages, hdecodes, hmany⟩ := hread msgs [msg] part rfl rfl
    have hmem : msg ∈ s.taken := by
      rw [htaken]
      simp
    obtain ⟨hrange, -⟩ := h.mem_taken hmem
    obtain ⟨-, m, -, hparses⟩ := parses_serialize hrange hbytes
    have hwait := ControlMessageReader.streaming_read.eof_of_prefix hparses.eq hpart hne
    exact ⟨msgs, [msg], messages, part, rfl, by simp, by simp, hdecodes, hmany, hwait⟩

end Session

/-- **The client's control channel.** Over any interleaving of the callers with the thread, no
assertion fails, the thread does not sleep over work, only messages that may be dropped are refused
and no more than 60 of them wait. The thread takes the messages in the order in which they were
accepted, each of them once, and the sizes of the display in the order in which they were asked for;
the last of these is sent or waits. The phone reads what the thread took. -/
theorem messages_reach_phone {labels : List Label} {s : Session} (hok : ∀ l ∈ labels, l.Ok)
    (h : exec Session.step .init labels = some s) :
    s.controller.aborted = false ∧
    (s.controller.thread = .waiting →
      s.controller.queue = [] ∧ s.controller.width = 0 ∧ s.controller.stopped = false) ∧
    (∀ p ∈ s.refused, p.1.isDroppable = true ∨ p.2 = false) ∧
    (s.controller.queue.filter (·.isDroppable)).length ≤ 60 ∧
    s.taken.filter (·.size?.isNone) ++ s.controller.queue = s.accepted ∧
    (s.taken.filterMap ControlMsg.size? ++ s.controller.pending).Sublist s.requested ∧
    (s.taken.filterMap ControlMsg.size? ++ s.controller.pending).getLast? =
      s.requested.getLast? ∧
    ∃ whole rest messages part, s.taken = whole ++ rest ∧ rest.length ≤ 1 ∧
      (s.controller.thread = .running ∨ s.controller.thread = .waiting → rest = []) ∧
      List.Forall₂ ControlMsg.Decodes whole messages ∧
      ControlMessageReader.read.many whole.length s.controller.socket = .ok (messages, part) ∧
      ControlMessageReader.read part = .error .eof := by
  have hinv := Session.Inv.exec hok h
  exact ⟨hinv.alive, hinv.awake, hinv.refused, hinv.bound, hinv.fifo, hinv.sublist, hinv.latest,
    hinv.reads⟩

/-- The thread waits; a key and a new size are asked for; the size is sent first, and the socket
takes one byte of the key. -/
theorem messages_reach_phone_cut :
    let s : Session :=
      { controller := ⟨[], 0, 0, false, .ended false, [21, 3, 32, 2, 88, 4], false⟩
        accepted := [.backOrScreenOn 0]
        refused := []
        requested := [(800, 600)]
        taken := [.resizeDisplay 800 600, .backOrScreenOn 0] }
    exec Session.step .init [.loop, .push (.backOrScreenOn 0) true, .resizeDisplay 800 600, .loop,
        .send 5, .loop, .send 1] = some s ∧
      ∃ whole messages part, List.Forall₂ ControlMsg.Decodes whole messages ∧
        ControlMessageReader.read.many whole.length s.controller.socket = .ok (messages, part) ∧
        ControlMessageReader.read part = .error .eof := by
  intro s
  have hok : ∀ l ∈ [Label.loop, .push (.backOrScreenOn 0) true, .resizeDisplay 800 600, .loop,
      .send 5, .loop, .send 1], l.Ok := by
    intro l hl
    simp only [List.mem_cons, List.not_mem_nil, or_false] at hl
    obtain rfl | rfl | rfl | rfl | rfl | rfl | rfl := hl
    · trivial
    · exact ⟨by decide, ⟨by decide, by decide⟩, trivial⟩
    · exact ⟨by decide, by decide⟩
    iterate 4 trivial
  have hexec : exec Session.step .init [.loop, .push (.backOrScreenOn 0) true,
      .resizeDisplay 800 600, .loop, .send 5, .loop, .send 1] = some s := by decide +kernel
  obtain ⟨-, -, -, -, -, -, -, whole, -, messages, part, -, -, -, hdecodes, hread, hwait⟩ :=
    messages_reach_phone hok hexec
  exact ⟨hexec, whole, messages, part, hdecodes, hread, hwait⟩

end AllRelay.Client
