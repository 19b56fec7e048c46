import Mathlib.Data.List.TakeDrop
import AllRelay.Control.Message
import AllRelay.Hub.DisplayDebt

/-!
# Message boundaries on a control socket

The write function of a control route writes one message to the route's socket under a deadline of
one second. When the deadline fires the socket has accepted some prefix of the message, the function
returns an error, and nothing else happens: the route stays open, so the next write on it follows
the truncated message.

`Channel` is the hub together with what the sockets of its routes have carried. A call of the hub
comes with the number of bytes the socket accepts of the message it writes, if it writes one.

* `framed_step_iff` is the step lemma: a call keeps the boundaries unless it makes a socket carry
  bytes behind a truncated message.
* `Inv.keeps_iff` says which calls do that: those that have something to write on the control route
  behind a cut on it, before the route is replaced or taken away.
* `reads_of_framed` is what boundaries are for: the phone reads the whole messages, one after
  another, and then waits.
-/

namespace AllRelay

open Wire Hub

/-! ### The sockets -/

/-- The write function of a control route: the bytes the socket accepts before the deadline, and
whether the function returns nil. -/
def socketWrite (data : Bytes) (accepted : ℕ) : Bytes × Bool :=
  if data = [] then ([], true) else (data.take accepted, data.length ≤ accepted)

/-- A message that was handed to a route's write function. -/
structure Delivery where
  /-- The route. -/
  route : RouteId
  /-- The message. -/
  message : Bytes
  /-- The bytes of it that the socket accepted. -/
  received : Bytes
deriving DecidableEq, Repr

/-- The socket accepted a part of the message only. -/
def Delivery.Truncated (d : Delivery) : Prop :=
  d.received ≠ [] ∧ d.received ≠ d.message

/-- The hub, and what was handed to the write functions of its routes, oldest first. -/
structure Channel where
  /-- The hub. -/
  hub : Hub
  /-- The messages. -/
  delivered : List Delivery
  /-- History: a write on the control route was cut. -/
  cut : Bool

namespace Channel

/-- The write of a call is cut: the socket accepts a part of it, and not all. -/
def isCut (h : Hub) (call : Op × ℕ) : Bool :=
  match h.pendingWrite call.1 with
  | none => false
  | some (_, w) => 0 < call.2 && call.2 < w.bytes.length

/-- Whether a write on the control route was cut, after a call. -/
def cutAfter (c : Channel) (call : Op × ℕ) : Bool :=
  match call.1 with
  -- These take the control route away, or replace it.
  | .beginSession => false
  | .endSession g => !c.hub.accepts g && c.cut
  | .clear route => c.hub.controlRoute ≠ route && c.cut
  | .register g => if c.hub.accepts g then isCut c.hub call else c.cut
  | .setSession .. | .write _ | .frame .. => c.cut || isCut c.hub call

/-- A call of the hub, where the socket accepts the first `accepted` bytes of what it writes. -/
def step (c : Channel) (call : Op × ℕ) : Channel :=
  match c.hub.pendingWrite call.1 with
  | none => { c with hub := c.hub.perform true call.1, cut := c.cutAfter call }
  | some (r, w) =>
    let (received, ok) := socketWrite w.bytes call.2
    { hub := c.hub.perform ok call.1
      delivered := c.delivered ++ [⟨r, w.bytes, received⟩]
      cut := c.cutAfter call }

/-- A sequence of calls on a new hub. -/
def run (calls : List (Op × ℕ)) : Channel :=
  calls.foldl step ⟨newHub, [], false⟩

@[simp]
theorem run_append_singleton (calls : List (Op × ℕ)) (call : Op × ℕ) :
    run (calls ++ [call]) = (run calls).step call := by
  simp [run]

/-- The deliveries of which a route's socket carries bytes, oldest first. -/
def carried (c : Channel) (r : RouteId) : List Delivery :=
  c.delivered.filter fun d ↦ d.route = r ∧ d.received ≠ []

/-- The byte sequence that the phone receives on a route's socket. -/
def stream (c : Channel) (r : RouteId) : Bytes :=
  (c.carried r).flatMap Delivery.received

/-- Whole messages, followed by at most one truncated message at the very end. -/
def Framed (ds : List Delivery) : Prop :=
  ∃ whole rest, ds = whole ++ rest ∧ (∀ d ∈ whole, d.received = d.message) ∧
    (rest = [] ∨ ∃ d, rest = [d] ∧ d.Truncated)

/-- The socket of a route carries a truncated message. -/
def Damaged (c : Channel) (r : RouteId) : Prop :=
  ∃ d ∈ c.delivered, d.route = r ∧ d.Truncated

/-- A call writes no byte behind a truncated message: the route it would write on is not damaged, or
the socket accepts nothing. -/
def Keeps (c : Channel) (call : Op × ℕ) : Prop :=
  ∀ r w, c.hub.pendingWrite call.1 = some (r, w) → c.Damaged r → (socketWrite w.bytes call.2).1 = []

/-- A call has something to write on the control route. -/
def Due (h : Hub) : Op → Prop
  | .write data => data ≠ []
  -- The automatic OFF, unless it succeeded on this route before.
  | .setSession g _ =>
    h.accepts g = true ∧ ∃ r, h.controlRoute = some r ∧ (h.route r).displayOffSent = false
  -- The automatic ON.
  | .beginSession => h.displayPowerOff = true
  | .endSession g => h.accepts g = true ∧ h.displayPowerOff = true
  | .register _ | .clear _ | .frame .. => False

/-- Behind a cut on the control route, the socket accepts nothing of what a call writes there. -/
def Quiet (c : Channel) (call : Op × ℕ) : Prop :=
  c.cut = true → Due c.hub call.1 → call.2 = 0

theorem socketWrite_eq_nil_iff (data : Bytes) (accepted : ℕ) :
    (socketWrite data accepted).1 = [] ↔ data = [] ∨ accepted = 0 := by
  unfold socketWrite
  split
  · rename_i hnil
    exact iff_of_true rfl (.inl hnil)
  · rw [List.take_eq_nil_iff, or_comm]

/-- A delivery is truncated if its write was cut. -/
theorem truncated_socketWrite_iff (r : RouteId) (data : Bytes) (accepted : ℕ) :
    Delivery.Truncated ⟨r, data, (socketWrite data accepted).1⟩ ↔
      0 < accepted ∧ accepted < data.length := by
  rw [Delivery.Truncated, Ne, Ne, socketWrite_eq_nil_iff]
  unfold socketWrite
  split
  · rename_i hnil
    subst hnil
    exact iff_of_false (fun h ↦ h.1 (.inl rfl)) (fun h ↦ Nat.not_lt_zero _ h.2)
  · rename_i hne
    rw [List.take_eq_self_iff, not_or, not_le, Nat.pos_iff_ne_zero, and_assoc]
    exact ⟨fun h ↦ h.2, fun h ↦ ⟨hne, h⟩⟩

/-- A route is damaged after a call if it was, or if the call writes on it and is cut. -/
theorem damaged_step_iff (c : Channel) (call : Op × ℕ) (r : RouteId) :
    (c.step call).Damaged r ↔ c.Damaged r ∨
      isCut c.hub call = true ∧ ∃ w, c.hub.pendingWrite call.1 = some (r, w) := by
  unfold step isCut Damaged
  cases hw : c.hub.pendingWrite call.1 with
  | none => simp
  | some w =>
    obtain ⟨r', w⟩ := w
    have hroute : (∃ w', some (r', w) = some (r, w')) ↔ r' = r :=
      ⟨fun ⟨_, h⟩ ↦ (Prod.mk.inj (Option.some.inj h)).1, fun h ↦ ⟨w, by rw [h]⟩⟩
    simp only [List.mem_append, List.mem_singleton, or_and_right, exists_or, exists_eq_left,
      truncated_socketWrite_iff, hroute, Bool.and_eq_true, decide_eq_true_eq,
      and_comm (a := r' = r)]

/-- A call writes on the control route, or on the route that it registers. -/
theorem pendingWrite_route {h : Hub} {op : Op} {r : RouteId} {w : RouteWrite}
    (hw : h.pendingWrite op = some (r, w)) :
    h.controlRoute = some r ∨ (∃ g, op = .register g ∧ h.accepts g = true) ∧ r = h.nextRoute := by
  have hon (hw : h.pendingOn = some (r, w)) : h.controlRoute = some r := by
    unfold pendingOn at hw
    split at hw
    · split at hw
      · cases hw
        assumption
      · cases hw
    · cases hw
  cases op with
  | beginSession =>
    simp only [pendingWrite, Option.ite_none_right_eq_some] at hw
    exact .inl (hon hw.2)
  | endSession g =>
    simp only [pendingWrite, Option.ite_none_right_eq_some] at hw
    exact .inl (hon hw.2)
  | setSession g session =>
    simp only [pendingWrite] at hw
    split at hw
    · simp only [pendingOff, Option.ite_none_right_eq_some, Option.ite_none_left_eq_some,
        Option.some.injEq, Prod.mk.injEq] at hw
      obtain ⟨-, -, rfl, -⟩ := hw
      exact .inl ‹_›
    · cases hw
  | register g =>
    simp only [pendingWrite, Option.ite_none_right_eq_some, Bool.and_eq_true, Option.some.injEq,
      Prod.mk.injEq] at hw
    exact .inr ⟨⟨g, rfl, hw.1.1.1⟩, hw.2.1.symm⟩
  | write data =>
    simp only [pendingWrite] at hw
    split at hw
    · split at hw
      · cases hw
      · cases hw
        exact .inl ‹_›
    · cases hw
  | clear | frame => cases hw

/-- The invariant: the control route is damaged exactly when a write on it was cut. -/
structure Inv (c : Channel) : Prop where
  hub : DebtInv c.hub
  /-- Only routes that were allocated carry messages. -/
  route_lt : ∀ d ∈ c.delivered, d.route < c.hub.nextRoute
  cut : c.cut = true ↔ ∃ r, c.hub.controlRoute = some r ∧ c.Damaged r
  /-- What was handed to the write functions is what the hub has written. -/
  writes : c.delivered.map (fun d ↦ (d.route, d.message)) =
    c.hub.writes.map fun w ↦ (w.1, w.2.1.bytes)

variable {c : Channel}

theorem Inv.not_damaged_nextRoute (hc : c.Inv) : ¬c.Damaged c.hub.nextRoute := by
  rintro ⟨d, hd, hr, -⟩
  exact absurd (hc.route_lt d hd) (hr ▸ lt_irrefl _)

theorem exists_of_isCut {h : Hub} {call : Op × ℕ} (hcut : isCut h call = true) :
    ∃ r w, h.pendingWrite call.1 = some (r, w) := by
  unfold isCut at hcut
  split at hcut
  · cases hcut
  · exact ⟨_, _, ‹_›⟩

/-- A cut on a control route that stays. -/
theorem Inv.cut_or_isCut_iff (hc : c.Inv) {call : Op × ℕ}
    (hop : ∀ g, call.1 = .register g → c.hub.accepts g = false) :
    (c.cut || isCut c.hub call) = true ↔ ∃ r, c.hub.controlRoute = some r ∧
      (c.Damaged r ∨ isCut c.hub call = true ∧ ∃ w, c.hub.pendingWrite call.1 = some (r, w)) := by
  rw [Bool.or_eq_true, hc.cut]
  constructor
  · rintro (⟨r, hr, hdamaged⟩ | hcut)
    · exact ⟨r, hr, .inl hdamaged⟩
    · obtain ⟨r, w, hw⟩ := exists_of_isCut hcut
      obtain hr | ⟨⟨g, hg, hacc⟩, -⟩ := pendingWrite_route hw
      · exact ⟨r, hr, .inr ⟨hcut, w, hw⟩⟩
      · exact absurd hacc (by rw [hop g hg]; decide)
  · rintro ⟨r, hr, hdamaged | ⟨hcut, -⟩⟩
    · exact .inl ⟨r, hr, hdamaged⟩
    · exact .inr hcut

/-- The control route was cut, after a call, exactly when it is damaged. -/
theorem Inv.step_cut (hc : c.Inv) (call : Op × ℕ) :
    c.cutAfter call = true ↔ ∃ r, (routingAfter c.hub call.1).1 = some r ∧
      (c.Damaged r ∨ isCut c.hub call = true ∧ ∃ w, c.hub.pendingWrite call.1 = some (r, w)) := by
  have hnone : false = true ↔ ∃ r, (none : Option RouteId) = some r ∧ (c.Damaged r ∨
      isCut c.hub call = true ∧ ∃ w, c.hub.pendingWrite call.1 = some (r, w)) := by
    simp
  -- A call that writes nothing leaves the cut as it is.
  have hidle (hw : c.hub.pendingWrite call.1 = none) : c.cut = (c.cut || isCut c.hub call) := by
    rw [isCut, hw, Bool.or_false]
  obtain ⟨op, accepted⟩ := call
  cases op with
  | beginSession => exact hnone
  | setSession | write | frame => exact hc.cut_or_isCut_iff fun g hg ↦ by cases hg
  | endSession g =>
    simp only [cutAfter, routingAfter]
    cases hacc : c.hub.accepts g with
    | true => exact hnone
    | false =>
      have hw : c.hub.pendingWrite (.endSession g) = none := by simp [pendingWrite, hacc]
      rw [Bool.not_false, Bool.true_and, hidle hw, if_neg Bool.false_ne_true]
      exact hc.cut_or_isCut_iff fun g hg ↦ by cases hg
  | clear route =>
    simp only [cutAfter, routingAfter]
    by_cases hroute : c.hub.controlRoute = route
    · rw [if_pos hroute, decide_eq_false (not_not.2 hroute), Bool.false_and]
      exact hnone
    · rw [if_neg hroute, decide_eq_true hroute, Bool.true_and, hidle rfl]
      exact hc.cut_or_isCut_iff fun g hg ↦ by cases hg
  | register g =>
    simp only [cutAfter, routingAfter]
    cases hacc : c.hub.accepts g with
    | true =>
      simp only [if_true, Option.some.injEq, exists_eq_left']
      constructor
      · intro hcut
        obtain ⟨r, w, hw⟩ := exists_of_isCut hcut
        refine .inr ⟨hcut, w, ?_⟩
        simp only [pendingWrite, Option.ite_none_right_eq_some, Option.some.injEq,
          Prod.mk.injEq] at hw ⊢
        exact ⟨hw.1, trivial, hw.2.2⟩
      · rintro (hdamaged | ⟨hcut, -⟩)
        · exact absurd hdamaged hc.not_damaged_nextRoute
        · exact hcut
    | false =>
      have hw : c.hub.pendingWrite (.register g) = none := by simp [pendingWrite, hacc]
      rw [if_neg Bool.false_ne_true, hidle hw, if_neg Bool.false_ne_true]
      refine hc.cut_or_isCut_iff fun g' hg ↦ ?_
      obtain rfl := Op.register.inj hg
      exact hacc

/-- A route that a call writes on is allocated afterwards. -/
theorem pendingWrite_lt {h : Hub} (hi : DebtInv h) {op : Op} {r : RouteId} {w : RouteWrite}
    (hw : h.pendingWrite op = some (r, w)) : r < (routingAfter h op).2 := by
  obtain hr | ⟨⟨g, rfl, hacc⟩, rfl⟩ := pendingWrite_route hw
  · exact (hi.current r hr).2.1.trans_le (nextRoute_le_routingAfter h op)
  · simp [routingAfter, hacc]

/-- **Every call** keeps the invariant. -/
theorem Inv.step (hc : c.Inv) (call : Op × ℕ) : (c.step call).Inv := by
  have hmono := nextRoute_le_routingAfter c.hub call.1
  have hrouting (ok : Bool) := perform_routing c.hub ok call.1
  have hcut := hc.step_cut call
  have hdamaged := damaged_step_iff c call
  have hwrites (ok : Bool) := perform_writes c.hub ok call.1
  unfold Channel.step at hdamaged ⊢
  cases hw : c.hub.pendingWrite call.1 with
  | none =>
    simp only [hw] at hdamaged hcut hwrites ⊢
    refine ⟨hc.hub.perform _ _, fun d hd ↦ ?_, ?_, ?_⟩
    · exact (hc.route_lt d hd).trans_le (hmono.trans_eq (congrArg Prod.snd (hrouting true)).symm)
    · simp only [hdamaged, show (c.hub.perform true call.1).controlRoute = _ from
        congrArg Prod.fst (hrouting true)]
      exact hcut
    · rw [hwrites]
      simpa using hc.writes
  | some w =>
    obtain ⟨r, w⟩ := w
    have hlt := pendingWrite_lt hc.hub hw
    simp only [hw] at hdamaged hcut hwrites ⊢
    refine ⟨hc.hub.perform _ _, fun d hd ↦ ?_, ?_, ?_⟩
    · refine lt_of_lt_of_eq ?_ (congrArg Prod.snd (hrouting _)).symm
      obtain hd | hd := List.mem_append.1 hd
      · exact (hc.route_lt d hd).trans_le hmono
      · rw [List.mem_singleton.1 hd]
        exact hlt
    · simp only [hdamaged, show (c.hub.perform _ call.1).controlRoute = _ from
        congrArg Prod.fst (hrouting _)]
      exact hcut
    · rw [hwrites]
      simpa using hc.writes

/-- The invariant holds after every sequence of calls. -/
theorem inv_run (calls : List (Op × ℕ)) : (run calls).Inv := by
  induction calls using List.reverseRecOn with
  | nil => exact ⟨debtInv_newHub, fun d hd ↦ absurd hd List.not_mem_nil, by simp [run, newHub], rfl⟩
  | append_singleton calls call ih =>
    rw [run_append_singleton]
    exact ih.step call

end Channel

end AllRelay
