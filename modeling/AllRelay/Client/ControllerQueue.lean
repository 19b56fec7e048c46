import AllRelay.Client.VecDeque
import AllRelay.Control.ClientController

/-!
# The queue of the control thread

`Session` has the messages of the control thread in a list. In the client they are in a ring buffer
for which `sc_controller_init` has reserved `SC_CONTROL_MSG_QUEUE_LIMIT + 4` cells. `Queued` is a
session next to its ring buffer: what `sc_vecdeque_push` answers is the answer of the session's
allocation, and what `sc_vecdeque_pop` returns is what the thread sends.

In every run the ring buffer holds the list (`Queued.Inv`), and none of the assertions of the macros
fails.
-/

namespace AllRelay.Client

open LabelledSystem

namespace VecDeque

variable (L : Layout)

/-- The part of `sc_controller_init` about the queue; nothing if there is no memory. -/
def controllerInit (memory : Bool) : Option (VecDeque ControlMsg) := do
  let (v, ok) ← init.reserve L (Controller.queueLimit + 4) memory
  if ok then return v else none

/-- The calls of `sc_controller_push_msg`, with what it returns. -/
def pushMsg (v : VecDeque ControlMsg) (msg : ControlMsg) (memory : Bool) :
    Option (VecDeque ControlMsg × Bool) :=
  if msg.type = 21 then none
  else if v.size < Controller.queueLimit then (v.pushNoresize L msg).map fun v ↦ (v, true)
  else if !msg.isDroppable then v.push L msg memory
  else some (v, false)

end VecDeque

/-- A session of the control thread, and the ring buffer of its queue. -/
structure Queued where
  /-- The session. -/
  session : Session
  /-- `queue`. -/
  queue : VecDeque ControlMsg
  /-- The messages that `sc_vecdeque_pop` returned, oldest first. -/
  popped : List ControlMsg
deriving DecidableEq, Repr

/-- The same call, whatever an allocation yields. -/
def Label.SameCall : Label → Label → Prop
  | .push msg _, .push msg' _ => msg = msg'
  | l, l' => l = l'

namespace Queued

variable (L : Layout)

/-- The thread finds a message in the queue and no size to send. -/
def Pops (s : Queued) : Prop :=
  s.session.controller.thread = .running ∧ s.session.controller.stopped = false ∧
    s.session.controller.width = 0 ∧ s.queue.size ≠ 0

instance (s : Queued) : Decidable s.Pops := by
  unfold Pops
  infer_instance

/-- One step of a thread. It fails with a macro whose assertion fails. -/
def step (s : Queued) (l : Label) : Option Queued :=
  match l with
  | .push msg memory => do
    let (queue, pushed) ← s.queue.pushMsg L msg memory
    return { s with session := ← s.session.step (.push msg pushed), queue := queue }
  | .loop =>
    if s.Pops then do
      let (queue, msg) ← s.queue.pop L
      return ⟨← s.session.step .loop, queue, s.popped ++ [msg]⟩
    else do return { s with session := ← s.session.step .loop }
  | l => do return { s with session := ← s.session.step l }

/-- Before the first call. -/
def init (memory : Bool) : Option Queued :=
  (VecDeque.controllerInit L memory).map fun v ↦ ⟨.init, v, []⟩

variable {L : Layout}

/-- **The invariant**: the ring buffer holds the queue of the session, there is room for the
messages of `sc_vecdeque_push_noresize`, and what was popped is what the thread took, but for the
sizes. -/
structure Inv (L : Layout) (s : Queued) : Prop where
  /-- The invariant of the session. -/
  session : s.session.Inv
  /-- The ring buffer holds the queue. -/
  queue : ∃ room, s.queue.Represents L ⟨s.session.controller.queue, room⟩ ∧
    Controller.queueLimit + 4 ≤ room
  /-- What was popped. -/
  popped : s.popped = s.session.taken.filter (·.size?.isNone)

end Queued

namespace VecDeque

variable {L : Layout} {v : VecDeque ControlMsg} {queue : List ControlMsg} {room : ℕ}

/-- The queue that `sc_controller_init` sets up. -/
theorem represents_of_controllerInit {memory : Bool} (h : controllerInit L memory = some v) :
    ∃ room, v.Represents L ⟨[], room⟩ ∧ Controller.queueLimit + 4 ≤ room := by
  obtain ⟨⟨v', ok⟩, hreserve, hok⟩ := Option.bind_eq_some_iff.1 h
  obtain ⟨rfl, heq⟩ := Option.ite_none_right_eq_some.1 hok
  obtain rfl := Option.some.inj heq
  have hcall := (represents_init (α := ControlMsg) (L := L)).call_reserve
    (Controller.queueLimit + 4) memory
  rw [VecDeque.call, hreserve] at hcall
  obtain ⟨⟨items, room⟩, hgrowing, hrep⟩ := hcall.exists_eq_some
  obtain ⟨hitems, hroom⟩ := Growing.of_call_reserve hgrowing
  obtain rfl : items = [] := hitems
  exact ⟨room, hrep, hroom⟩

/-- **What a push does to the ring buffer**: below the limit the message finds a cell, and above it
one that must not be dropped does unless the array has to grow and cannot. -/
theorem Represents.pushMsg (h : v.Represents L ⟨queue, room⟩)
    (hroom : Controller.queueLimit + 4 ≤ room) {msg : ControlMsg} (hmsg : msg.type ≠ 21)
    (memory : Bool) :
    ∃ v' pushed room', v.pushMsg L msg memory = some (v', pushed) ∧
      v'.Represents L ⟨if pushed then queue ++ [msg] else queue, room'⟩ ∧
      Controller.queueLimit + 4 ≤ room' ∧
      (pushed = true → queue.length < Controller.queueLimit ∨ msg.isDroppable = false) ∧
      (pushed = false → Controller.queueLimit ≤ queue.length ∧
        (msg.isDroppable = true ∨ Controller.queueLimit + 4 ≤ queue.length)) := by
  have hsize : v.size = queue.length := h.size
  rw [VecDeque.pushMsg, if_neg hmsg, hsize]
  obtain hlimit | hlimit := lt_or_ge queue.length Controller.queueLimit
  · obtain ⟨v', hv', hrep⟩ := h.pushNoresize (show queue.length < room by omega) msg
    rw [if_pos hlimit, hv']
    exact ⟨v', true, room, rfl, hrep, hroom, fun _ ↦ .inl hlimit, fun h ↦ absurd h (by decide)⟩
  rw [if_neg hlimit.not_gt]
  cases hdrop : msg.isDroppable with
  | true =>
    exact ⟨v, false, room, rfl, h, hroom, fun h ↦ absurd h (by decide), fun _ ↦ ⟨hlimit, .inl rfl⟩⟩
  | false =>
    obtain ⟨v', pushed, room', hpush, hrep, hle, hfull⟩ := h.push msg memory
    exact ⟨v', pushed, room', hpush, hrep, hroom.trans hle, fun _ ↦ .inr rfl,
      fun hp ↦ ⟨hlimit, .inr (hroom.trans (hfull hp))⟩⟩

end VecDeque

namespace Queued

variable {L : Layout} {s t : Queued}

/-- The queue of the model after a push that is answered as the ring buffer answers. -/
theorem pushMsg_eq (c : Controller) {msg : ControlMsg} (hmsg : msg.type ≠ 21) {pushed : Bool}
    (hroom : pushed = true → c.queue.length < Controller.queueLimit ∨ msg.isDroppable = false)
    (hfull : pushed = false → Controller.queueLimit ≤ c.queue.length) :
    ∃ thread, c.pushMsg msg pushed =
      ({ c with
        queue := if pushed then c.queue ++ [msg] else c.queue
        thread := thread }, pushed) := by
  obtain ⟨thread, -, hdrop, heq⟩ | ⟨hrefused, heq⟩ := Session.pushMsg_cases c hmsg pushed
  · cases pushed with
    | true => exact ⟨thread, heq⟩
    | false =>
      have hlimit := hfull rfl
      rw [Controller.pushMsg, if_neg hmsg, if_neg hlimit.not_gt, Bool.and_false,
        if_neg Bool.false_ne_true]
      exact ⟨c.thread, rfl⟩
  · cases pushed with
    | true =>
      have hdrop := hrefused.resolve_right (by decide)
      have hlimit := (hroom rfl).resolve_right (by simp [hdrop])
      rw [Controller.pushMsg, if_neg hmsg, if_pos hlimit] at heq
      cases (Prod.mk.inj heq).2
    | false => exact ⟨c.thread, heq⟩

theorem Inv.push (h : s.Inv L) {msg : ControlMsg} {memory : Bool}
    (hok : (Label.push msg memory).Ok) :
    ∃ t pushed, s.step L (.push msg memory) = some t ∧ t.Inv L ∧
      s.session.step (.push msg pushed) = some t.session ∧
      t.session.accepted = (if pushed then s.session.accepted ++ [msg] else s.session.accepted) ∧
      (pushed = false → msg.isDroppable = true ∨ Controller.queueLimit + 4 ≤ s.queue.size) := by
  obtain ⟨room, hqueue, hroom⟩ := h.queue
  obtain ⟨v, pushed, room', hpush, hrep, hroom', htrue, hfalse⟩ :=
    hqueue.pushMsg hroom hok.1 memory
  obtain ⟨thread, heq⟩ := pushMsg_eq s.session.controller hok.1 htrue fun hp ↦ (hfalse hp).1
  obtain ⟨u, hu, hucontroller, hutaken⟩ : ∃ u, s.session.step (.push msg pushed) = some u ∧
      u.controller.queue =
        (if pushed then s.session.controller.queue ++ [msg] else s.session.controller.queue) ∧
      u.taken = s.session.taken := by
    rw [Session.step, h.session.alive, if_neg Bool.false_ne_true]
    simp only [heq]
    split_ifs
    · exact ⟨_, rfl, rfl, rfl⟩
    · exact ⟨_, rfl, rfl, rfl⟩
  refine ⟨{ s with session := u, queue := v }, pushed, ?_, ⟨?_, ⟨room', ?_, hroom'⟩, ?_⟩, hu, ?_,
    ?_⟩
  · show (s.queue.pushMsg L msg memory).bind _ = _
    rw [hpush]
    show (s.session.step (.push msg pushed)).bind _ = _
    rw [hu]
    rfl
  · exact h.session.step (l := .push msg pushed) hok hu
  · rw [hucontroller]
    exact hrep
  · show s.popped = u.taken.filter _
    rw [hutaken]
    exact h.popped
  · have haccepted : u.accepted = if (s.session.controller.pushMsg msg pushed).2
        then s.session.accepted ++ [msg] else s.session.accepted := Session.step_accepted hu
    rw [haccepted, heq]
  · intro hp
    rw [show s.queue.size = s.session.controller.queue.length from hqueue.size]
    exact (hfalse hp).2

/-- A pass of the loop that takes a message. -/
theorem loop_of_cons {c : Controller} {msg : ControlMsg} {queue : List ControlMsg}
    (hrunning : c.thread = .running) (hstopped : c.stopped = false) (hwidth : c.width = 0)
    (hqueue : c.queue = msg :: queue) :
    c.loop = some { c with queue := queue, thread := .sending msg } := by
  rw [Controller.loop, if_pos hrunning, hstopped, if_neg Bool.false_ne_true,
    if_neg (not_not.2 hwidth)]
  simp only [hqueue]

/-- A pass of the loop that takes no message: it stops, waits or sends a size. -/
theorem loop_keeps {c c' : Controller} (h : c.loop = some c')
    (hpops : ¬(c.thread = .running ∧ c.stopped = false ∧ c.width = 0 ∧ c.queue ≠ [])) :
    c'.queue = c.queue ∧ ∀ msg, c'.thread = .sending msg → msg.size?.isNone = false := by
  obtain ⟨hrunning, rfl | ⟨-, -, rfl⟩ | ⟨-, -, -, rfl⟩ | ⟨hwidth, msg, queue, hqueue, rfl⟩⟩ :=
    Session.loop_cases h
  · exact ⟨rfl, fun _ hmsg ↦ Thread.noConfusion hmsg⟩
  · refine ⟨rfl, fun msg hmsg ↦ ?_⟩
    obtain rfl := Thread.sending.inj hmsg
    rfl
  · exact ⟨rfl, fun _ hmsg ↦ Thread.noConfusion hmsg⟩
  · have hstopped : c.stopped = true := by
      by_contra hstopped
      exact hpops ⟨hrunning, Bool.not_eq_true _ ▸ hstopped, hwidth, hqueue ▸ List.cons_ne_nil _ _⟩
    rw [Controller.loop, if_pos hrunning, if_pos hstopped] at h
    cases congrArg Controller.thread (Option.some.inj h)

/-- The message that the thread takes is the one that the macro pops. -/
theorem Inv.loop_of_pops (h : s.Inv L) (hpops : s.Pops) {u : Session}
    (hu : s.session.step .loop = some u) :
    ∃ t, s.step L .loop = some t ∧ t.Inv L ∧ t.session = u := by
  obtain ⟨room, hqueue, hroom⟩ := h.queue
  have hkeep : u.Inv := h.session.step (l := .loop) trivial hu
  have hstep := hu
  rw [Session.step, h.session.alive, if_neg Bool.false_ne_true] at hstep
  obtain ⟨c, hc, heq⟩ := Option.bind_eq_some_iff.1 hstep
  have hsize : s.queue.size = s.session.controller.queue.length := hqueue.size
  obtain ⟨hrunning, hstopped, hwidth, hne⟩ := hpops
  obtain ⟨msg, queue, hcons⟩ : ∃ msg queue, s.session.controller.queue = msg :: queue :=
    List.exists_cons_of_length_pos (by omega)
  rw [loop_of_cons hrunning hstopped hwidth hcons] at hc
  obtain rfl := Option.some.inj hc
  obtain rfl := Option.some.inj heq
  rw [hcons] at hqueue
  obtain ⟨v, hpop, hrep⟩ := hqueue.pop
  have hsize? : msg.size? = none := by
    refine (Session.size?_eq_none_iff msg).2 (h.session.ok msg ?_).1
    rw [← h.session.fifo, hcons]
    exact List.mem_append_right _ List.mem_cons_self
  refine ⟨⟨_, v, s.popped ++ [msg]⟩, ?_, ⟨hkeep, ⟨room, hrep, hroom⟩, ?_⟩, rfl⟩
  · rw [step, if_pos ⟨hrunning, hstopped, hwidth, hne⟩, hpop]
    show (s.session.step .loop).bind _ = _
    rw [hu]
    rfl
  · show s.popped ++ [msg] = (s.session.taken ++ [msg]).filter _
    rw [List.filter_append, List.filter_cons_of_pos (by rw [hsize?]; rfl), h.popped]
    rfl

/-- A pass that pops nothing leaves the queue, and what it takes is a size. -/
theorem Inv.loop_of_not_pops (h : s.Inv L) (hpops : ¬s.Pops) {u : Session}
    (hu : s.session.step .loop = some u) :
    ∃ t, s.step L .loop = some t ∧ t.Inv L ∧ t.session = u := by
  obtain ⟨room, hqueue, hroom⟩ := h.queue
  have hkeep : u.Inv := h.session.step (l := .loop) trivial hu
  have hstep := hu
  rw [Session.step, h.session.alive, if_neg Bool.false_ne_true] at hstep
  obtain ⟨c, hc, heq⟩ := Option.bind_eq_some_iff.1 hstep
  have hsize : s.queue.size = s.session.controller.queue.length := hqueue.size
  have hnil : ¬(s.session.controller.thread = .running ∧
      s.session.controller.stopped = false ∧ s.session.controller.width = 0 ∧
      s.session.controller.queue ≠ []) := by
    rintro ⟨hrunning, hstopped, hwidth, hne⟩
    refine hpops ⟨hrunning, hstopped, hwidth, ?_⟩
    rw [hsize]
    exact List.length_eq_zero_iff.not.2 hne
  obtain ⟨hkept, hsizes⟩ := loop_keeps hc hnil
  have hu' : u.controller = c ∧
      u.taken.filter (·.size?.isNone) = s.session.taken.filter (·.size?.isNone) := by
    split at heq
    · next msg hmsg =>
      obtain rfl := Option.some.inj heq
      refine ⟨rfl, ?_⟩
      show (s.session.taken ++ [msg]).filter _ = _
      rw [List.filter_append, List.filter_cons_of_neg (by simp [hsizes msg hmsg]),
        List.filter_nil, List.append_nil]
    · obtain rfl := Option.some.inj heq
      exact ⟨rfl, rfl⟩
  refine ⟨{ s with session := u }, ?_, ⟨hkeep, ⟨room, ?_, hroom⟩, ?_⟩, rfl⟩
  · rw [step, if_neg hpops]
    show (s.session.step .loop).bind _ = _
    rw [hu]
    rfl
  · rw [hu'.1, hkept]
    exact hqueue
  · exact h.popped.trans hu'.2.symm

theorem Inv.loop (h : s.Inv L) {u : Session} (hu : s.session.step .loop = some u) :
    ∃ t, s.step L .loop = some t ∧ t.Inv L ∧ t.session = u := by
  by_cases hpops : s.Pops
  · exact h.loop_of_pops hpops hu
  · exact h.loop_of_not_pops hpops hu

/-- A step that does not concern the queue. -/
theorem Inv.keep (h : s.Inv L) {l : Label} (hok : l.Ok)
    (hpush : ∀ msg memory, l ≠ .push msg memory) (hloop : l ≠ .loop) {u : Session}
    (hu : s.session.step l = some u) :
    ∃ t, s.step L l = some t ∧ t.Inv L ∧ t.session = u := by
  obtain ⟨room, hqueue, hroom⟩ := h.queue
  have hkept : u.controller.queue = s.session.controller.queue ∧ u.taken = s.session.taken := by
    rw [Session.step.eq_def, h.session.alive, if_neg Bool.false_ne_true] at hu
    cases l with
    | push msg memory => exact absurd rfl (hpush msg memory)
    | loop => exact absurd rfl hloop
    | resizeDisplay width height =>
      obtain rfl := Option.some.inj hu
      refine ⟨?_, rfl⟩
      show (s.session.controller.resizeDisplay width height).queue = _
      rw [Session.resizeDisplay_eq _ hok.1 hok.2]
    | stop =>
      obtain rfl := Option.some.inj hu
      exact ⟨rfl, rfl⟩
    | wake =>
      obtain ⟨-, heq⟩ := Option.ite_none_right_eq_some.1 hu
      obtain rfl := Option.some.inj heq
      exact ⟨rfl, rfl⟩
    | send accepted =>
      obtain ⟨c, hc, heq⟩ := Option.bind_eq_some_iff.1 hu
      obtain rfl := Option.some.inj heq
      refine ⟨?_, rfl⟩
      show c.queue = _
      rw [Controller.processMsg] at hc
      split at hc
      · split at hc
        · obtain rfl := Option.some.inj hc
          rfl
        · split_ifs at hc <;> obtain rfl := Option.some.inj hc <;> rfl
      · cases hc
  refine ⟨{ s with session := u }, ?_, ⟨h.session.step hok hu, ⟨room, ?_, hroom⟩, ?_⟩, rfl⟩
  · rw [step.eq_def]
    cases l with
    | push msg memory => exact absurd rfl (hpush msg memory)
    | loop => exact absurd rfl hloop
    | resizeDisplay | stop | wake | send =>
      show (s.session.step _).bind _ = _
      rw [hu]
      rfl
  · rw [hkept.1]
    exact hqueue
  · rw [hkept.2]
    exact h.popped

/-- **No macro fails**: what the session can do, it can do with the ring buffer as its queue. The
session goes on with an allocation that is answered as the ring buffer answers. -/
theorem Inv.step_isSome (h : s.Inv L) {l : Label} (hok : l.Ok)
    (hl : (s.session.step l).isSome) : (s.step L l).isSome := by
  obtain ⟨u, hu⟩ := Option.isSome_iff_exists.1 hl
  cases l with
  | push msg memory =>
    obtain ⟨t, -, ht, -⟩ := h.push hok
    exact Option.isSome_of_eq_some ht
  | loop =>
    obtain ⟨t, ht, -⟩ := h.loop hu
    exact Option.isSome_of_eq_some ht
  | resizeDisplay | stop | wake | send =>
    obtain ⟨t, ht, -⟩ := h.keep hok (by simp) (by simp) hu
    exact Option.isSome_of_eq_some ht

/-- **A step of the ring buffer is a step of the model**, whose allocation is answered as the ring
buffer answers. -/
theorem Inv.step (h : s.Inv L) {l : Label} (hok : l.Ok) (hstep : s.step L l = some t) :
    t.Inv L ∧ ∃ l', l.SameCall l' ∧ l'.Ok ∧ s.session.step l' = some t.session := by
  cases l with
  | push msg memory =>
    obtain ⟨t', pushed, ht', hinv, hsession, -⟩ := h.push hok
    obtain rfl := Option.some.inj (ht'.symm.trans hstep)
    exact ⟨hinv, .push msg pushed, rfl, hok, hsession⟩
  | loop =>
    obtain ⟨u, hu⟩ : ∃ u, s.session.step .loop = some u := by
      rw [Queued.step] at hstep
      split_ifs at hstep
      · obtain ⟨x, -, hx⟩ := Option.bind_eq_some_iff.1 hstep
        obtain ⟨u, hu, -⟩ := Option.bind_eq_some_iff.1 hx
        exact ⟨u, hu⟩
      · obtain ⟨u, hu, -⟩ := Option.bind_eq_some_iff.1 hstep
        exact ⟨u, hu⟩
    obtain ⟨t', ht', hinv, rfl⟩ := h.loop hu
    obtain rfl := Option.some.inj (ht'.symm.trans hstep)
    exact ⟨hinv, .loop, rfl, hok, hu⟩
  | resizeDisplay | stop | wake | send =>
    obtain ⟨u, hu, -⟩ := Option.bind_eq_some_iff.1 (hstep.symm.trans rfl).symm
    obtain ⟨t', ht', hinv, rfl⟩ := h.keep hok (by simp) (by simp) hu
    obtain rfl := Option.some.inj (ht'.symm.trans hstep)
    exact ⟨hinv, _, rfl, hok, hu⟩

/-- The runs with the ring buffer are runs of the model. -/
theorem Inv.exec (h : s.Inv L) {labels : List Label} (hok : ∀ l ∈ labels, l.Ok)
    (hexec : exec (Queued.step L) s labels = some t) :
    t.Inv L ∧ ∃ labels', List.Forall₂ Label.SameCall labels labels' ∧ (∀ l ∈ labels', l.Ok) ∧
      LabelledSystem.exec Session.step s.session labels' = some t.session := by
  induction labels generalizing s with
  | nil =>
    obtain rfl := Option.some.inj hexec
    exact ⟨h, [], .nil, fun _ hl ↦ absurd hl List.not_mem_nil, rfl⟩
  | cons l labels ih =>
    obtain ⟨u, hu, hrest⟩ := exec_cons_eq_some_iff.1 hexec
    obtain ⟨hinv, l', hsame, hok', hstep⟩ := h.step (hok l List.mem_cons_self) hu
    obtain ⟨ht, labels', hforall, hoks, hexec'⟩ :=
      ih hinv (fun l hl ↦ hok l (List.mem_cons_of_mem _ hl)) hrest
    refine ⟨ht, l' :: labels', .cons hsame hforall, fun m hm ↦ ?_,
      exec_cons_eq_some_iff.2 ⟨_, hstep, hexec'⟩⟩
    obtain rfl | hm := List.mem_cons.1 hm
    · exact hok'
    · exact hoks m hm

theorem inv_init {memory : Bool} (h : init L memory = some s) : s.Inv L := by
  obtain ⟨v, hv, rfl⟩ := Option.map_eq_some_iff.1 h
  exact ⟨Session.Inv.init, VecDeque.represents_of_controllerInit hv, rfl⟩

end Queued

/-- **The ring buffer of the control thread.** Once `sc_controller_init` has reserved its cells,
every run of the threads is one of the model with its list, in which only the outcome of an
allocation may differ: the ring buffer holds the list, and what the macros have popped is what the
thread took besides the sizes. No assertion of a macro fails and none uses a cell that was never
written. Four messages beyond the limit that must not be dropped are accepted without memory. -/
theorem ring_holds_queue {L : Layout} {memory : Bool} {s₀ s : Queued} {labels : List Label}
    (hinit : Queued.init L memory = some s₀) (hok : ∀ l ∈ labels, l.Ok)
    (h : exec (Queued.step L) s₀ labels = some s) :
    (∃ labels', List.Forall₂ Label.SameCall labels labels' ∧
      exec Session.step .init labels' = some s.session) ∧
    RingBuffer.items s.queue.data s.queue.origin s.queue.size =
      s.session.controller.queue.map some ∧
    s.popped = s.session.taken.filter (·.size?.isNone) ∧
    (∀ l, l.Ok → (s.session.step l).isSome → (s.step L l).isSome) ∧
    ∀ msg, (Label.push msg false).Ok → msg.isDroppable = false →
      s.queue.size < Controller.queueLimit + 4 →
        ∃ t, s.step L (.push msg false) = some t ∧
          t.session.accepted = s.session.accepted ++ [msg] := by
  have hs₀ : s₀.session = .init := by
    obtain ⟨v, -, rfl⟩ := Option.map_eq_some_iff.1 hinit
    rfl
  obtain ⟨hinv, labels', hsame, -, hexec⟩ := (Queued.inv_init hinit).exec hok h
  obtain ⟨room, hqueue, -⟩ := hinv.queue
  refine ⟨⟨labels', hsame, hs₀ ▸ hexec⟩, hqueue.items, hinv.popped,
    fun l hl ↦ hinv.step_isSome hl, fun msg hmsg hdrop hsize ↦ ?_⟩
  obtain ⟨t, pushed, ht, -, -, haccepted, hrefused⟩ := hinv.push hmsg
  refine ⟨t, ht, ?_⟩
  cases pushed with
  | true => exact haccepted
  | false =>
    obtain hdropped | hfull := hrefused rfl
    · rw [hdrop] at hdropped
      cases hdropped
    · omega

/-- The layout of a 64-bit host with messages of 56 bytes. -/
def hostLayout : Layout := ⟨2 ^ 64 - 1, 56, by decide⟩

/-- A key is pushed without memory, and the thread pops it. -/
theorem ring_holds_queue_onePush :
    ∃ s₀ s, Queued.init hostLayout true = some s₀ ∧
      exec (Queued.step hostLayout) s₀ [.push (.backOrScreenOn 0) false, .loop] = some s ∧
      s.popped = [.backOrScreenOn 0] ∧
      RingBuffer.items s.queue.data s.queue.origin s.queue.size =
        s.session.controller.queue.map some := by
  have hinit : (Queued.init hostLayout true).isSome = true := by decide +kernel
  obtain ⟨s₀, hs₀⟩ := Option.isSome_iff_exists.1 hinit
  have hrun : ((Queued.init hostLayout true).bind fun s₀ ↦ exec (Queued.step hostLayout) s₀
      [.push (.backOrScreenOn 0) false, .loop]).any
        (fun s ↦ s.popped = [.backOrScreenOn 0]) = true := by decide +kernel
  rw [hs₀] at hrun
  obtain ⟨s, hs, hpopped⟩ := (Option.any_eq_true _ _).1 hrun
  have hok : ∀ l ∈ [Label.push (.backOrScreenOn 0) false, .loop], l.Ok := by
    intro l hl
    simp only [List.mem_cons, List.not_mem_nil, or_false] at hl
    obtain rfl | rfl := hl
    · exact ⟨by decide, ⟨by decide, by decide⟩, trivial⟩
    · trivial
  obtain ⟨-, hitems, -⟩ := ring_holds_queue hs₀ hok hs
  exact ⟨s₀, s, hs₀, hs, of_decide_eq_true hpopped, hitems⟩

end AllRelay.Client
