import AllRelay.Hub.DisplayDebt
import AllRelay.Library.LabelledSystem

/-!
# Display power across the host and the phone

Two programs switch the phone's panel. The phone turns it off when it accepts a screen connection,
before it sends the handshake byte (`FoldManager.prepareScreenSession`); closing the session of an
unfolded phone does nothing. The host turns it off and on again through the control socket, and it
turns it on only if it turned it off itself (`Hub.displayPowerOff`).

`DisplaySystem` is both of them: the hub with its lifecycle, the start attempts that lead to a
session or are given up, the control messages that are on their way and the phone with its panel.
Every write succeeds and every message is handled in the end, in the order of the writes: the
control daemon of the phone serves one connection at a time.

A session whose own OFF never happened, and a start that failed after the phone had prepared for it,
leave the panel dark. `display_restored` says that nothing else does: what there is to undo, and
what there is to undo it with, is read off the events alone (`PowerHistory`).
-/

namespace AllRelay

open Hub LabelledSystem

/-! ### The phone -/

namespace Phone

/-- `Device.setDisplayPower`, when the platform calls succeed: the panel's power mode afterwards. -/
def deviceSetDisplayPower (on : Bool) : Bool :=
  on

/-- `Controller.setDisplayPower`: a folded phone is not turned on. -/
def setDisplayPower (physicallyFolded on panel : Bool) : Bool :=
  if on && physicallyFolded then panel else deviceSetDisplayPower on

/-- `FoldManager.ensureDisplayOffAndAwake`: the panel afterwards. Waking a sleeping phone may turn
the panel on, so the power mode is asserted again. -/
def ensureDisplayOffAndAwake (screenOn : Bool) : Bool :=
  let panel := deviceSetDisplayPower false
  if screenOn then panel else deviceSetDisplayPower false

end Phone

/-! ### The system -/

/-- An attempt of the host to start the screen stream. -/
inductive Attempt where
  /-- Not made yet. -/
  | unused
  /-- The host has dialed and waits for the handshake byte. -/
  | dialing
  /-- The phone has prepared a session and sent the handshake byte, which the host has not read. -/
  | prepared
  /-- The host gave up before the phone accepted the connection. -/
  | abandoned
  /-- The host began a session, or gave up, or the phone prepared for an abandoned connection. -/
  | closed
deriving DecidableEq, Repr

/-- What the events so far come to. -/
structure PowerHistory where
  /-- The header of the session has arrived. -/
  header : Bool
  /-- A control route is registered, and was not cleared. -/
  route : Bool
  /-- A header and a control route came together, and no session has ended with a route since. -/
  owed : Bool
  /-- There is an OFF to undo: the phone has prepared a session, or a header and a control route
  came together, and no session has ended with a route and an OFF that is owed since; nor was its ON
  on its way when the phone prepared. -/
  toUndo : Bool
deriving DecidableEq, Repr

namespace PowerHistory

/-- A header and a control route come together. -/
def met (d : PowerHistory) : PowerHistory :=
  if d.header && d.route then { d with owed := true, toUndo := true } else d

/-- A session ends. -/
def ended (d : PowerHistory) : PowerHistory where
  header := false
  route := false
  owed := d.owed && !d.route
  toUndo := d.toUndo && !(d.owed && d.route)

end PowerHistory

/-- The host and the phone. -/
structure DisplaySystem where
  /-- The hub of the host. -/
  hub : Hub
  /-- The start attempts. -/
  attempt : ℕ → Attempt
  /-- The display power messages the host has written and the phone has not handled, oldest
  first. -/
  queue : List Bool
  /-- The panel's power mode is NORMAL. -/
  panel : Bool
  /-- The phone runs a screen session. -/
  session : Bool
  /-- History: what the events so far come to. -/
  history : PowerHistory

/-- What happens next. -/
inductive DisplayEvent where
  /-- The host dials the screen port. -/
  | dial (id : ℕ)
  /-- The phone accepts a connection, prepares a session and sends the handshake byte. -/
  | prepare (id : ℕ) (screenOn : Bool)
  /-- The host gives an attempt up. -/
  | giveUp (id : ℕ)
  /-- The host reads the handshake byte and begins a session. -/
  | begin (id : ℕ)
  /-- `SetScreenSession`. -/
  | setSession (generation : ℕ) (session : ScreenSession)
  /-- `RegisterControlRoute`. -/
  | register (generation : ℕ)
  /-- `ClearControlRoute`. -/
  | clear (route : Option RouteId)
  /-- `EndScreenSession`. -/
  | endSession (generation : ℕ)
  /-- The phone handles a display power message. -/
  | handle
  /-- The phone's screen session ends. -/
  | finish
deriving DecidableEq, Repr

namespace DisplaySystem

/-- The display power message that a call of the hub writes. -/
def message (h : Hub) (op : Op) : List Bool :=
  match h.pendingWrite op with
  | some (_, .display on) => [on]
  | _ => []

/-- What the events come to with a call of the hub. -/
def historyAfter (s : DisplaySystem) : Op → PowerHistory
  | .beginSession => s.history.ended
  | .setSession g _ =>
    if s.hub.accepts g then { s.history with header := true }.met else s.history
  | .register g => if s.hub.accepts g then { s.history with route := true }.met else s.history
  | .clear route =>
    if s.hub.controlRoute = route then { s.history with route := false } else s.history
  | .endSession g => if s.hub.accepts g then s.history.ended else s.history
  | .write _ | .frame .. => s.history

/-- A call of the hub, whose write succeeds. -/
def call (s : DisplaySystem) (op : Op) : DisplaySystem :=
  { s with
    hub := s.hub.perform true op
    queue := s.queue ++ message s.hub op
    history := s.historyAfter op }

/-- An attempt goes on. -/
def setAttempt (s : DisplaySystem) (id : ℕ) (a : Attempt) : DisplaySystem :=
  { s with attempt := Function.update s.attempt id a }

/-- The step of an event; the phone is not folded. -/
def step (s : DisplaySystem) : DisplayEvent → Option DisplaySystem
  | .dial id =>
    match s.attempt id with
    | .unused => some (s.setAttempt id .dialing)
    | _ => none
  | .prepare id screenOn =>
    let accept (a : Attempt) : DisplaySystem :=
      { s.setAttempt id a with
        panel := Phone.ensureDisplayOffAndAwake screenOn
        session := true
        history := { s.history with toUndo := s.queue.getLast? ≠ some true } }
    if s.session then none
    else
      match s.attempt id with
      | .dialing => some (accept .prepared)
      | .abandoned => some (accept .closed)
      | _ => none
  | .giveUp id =>
    match s.attempt id with
    | .dialing => some (s.setAttempt id .abandoned)
    | .prepared => some (s.setAttempt id .closed)
    | _ => none
  | .begin id =>
    match s.attempt id with
    | .prepared => some ((s.call .beginSession).setAttempt id .closed)
    | _ => none
  | .setSession g session => some (s.call (.setSession g session))
  | .register g => some (s.call (.register g))
  | .clear route => some (s.call (.clear route))
  | .endSession g => some (s.call (.endSession g))
  | .handle =>
    match s.queue with
    | [] => none
    | on :: rest =>
      some { s with queue := rest, panel := Phone.setDisplayPower false on s.panel }
  | .finish => if s.session then some { s with session := false } else none

/-- A new hub and a phone whose panel is on. -/
def start : DisplaySystem where
  hub := newHub
  attempt _ := .unused
  queue := []
  panel := true
  session := false
  history := ⟨false, false, false, false⟩

/-! ### Idle states -/

/-- The host has a session, or is about to begin one the phone has prepared. -/
def InUse (s : DisplaySystem) : Prop :=
  s.hub.screenActive = true ∨ ∃ id, s.attempt id = .prepared

/-- The host has no session and the phone has finished its side of the last one. -/
def Idle (s : DisplaySystem) : Prop :=
  ¬s.InUse ∧ s.session = false ∧ s.queue = []

/-- The panel once the messages on their way are handled. -/
def settled (s : DisplaySystem) : Bool :=
  s.queue.foldl (fun panel on ↦ Phone.setDisplayPower false on panel) s.panel

/-- The events that leave no OFF behind that nothing undoes:

* a start fails after the phone has prepared for it, or the phone prepares for a start that has
  failed, only while another session or start is there to end, or while there is nothing to undo (an
  ON is on its way);
* a session ends with an OFF that is owed and a control route to undo it on, or while another start
  is prepared, or while there is nothing to undo. -/
def Undone (s : DisplaySystem) : DisplayEvent → Prop
  | .giveUp id => s.attempt id = .prepared →
    s.hub.screenActive = true ∨ (∃ id', id' ≠ id ∧ s.attempt id' = .prepared) ∨
      s.history.toUndo = false
  | .prepare id _ => s.attempt id = .abandoned → s.InUse ∨ s.queue.getLast? = some true
  | .endSession g => s.hub.accepts g = true →
    (s.history.owed = true ∧ s.history.route = true) ∨ (∃ id, s.attempt id = .prepared) ∨
      s.history.toUndo = false
  | _ => True

/-! ### The invariant -/

/-- The hub, the messages and the phone are as the history says. -/
structure Agrees (s : DisplaySystem) : Prop where
  header : s.history.header = s.hub.screenHeaderReady
  route : s.history.route = s.hub.controlRoute.isSome
  owed : s.history.owed = s.hub.displayPowerOff
  toUndo : s.history.toUndo = !s.settled
  /-- An OFF that is owed was not undone. -/
  toUndo_of_owed : s.history.owed = true → s.history.toUndo = true

/-- An unused system has nothing to undo. -/
structure RestoreInv (s : DisplaySystem) : Prop where
  /-- The invariant of the hub. -/
  debt : DebtInv s.hub
  agrees : s.Agrees
  restored : ¬s.InUse → s.history.toUndo = false

theorem restoreInv_start : RestoreInv start where
  debt := debtInv_newHub
  agrees := ⟨rfl, rfl, rfl, rfl, fun h ↦ absurd h Bool.false_ne_true⟩
  restored _ := rfl

variable {s t : DisplaySystem}

/-- The last message on its way decides, or the panel. -/
theorem settled_eq (s : DisplaySystem) : s.settled = s.queue.getLast?.getD s.panel := by
  rw [settled]
  cases hqueue : s.queue.getLast? with
  | none =>
    rw [List.getLast?_eq_none_iff.1 hqueue]
    rfl
  | some on =>
    obtain ⟨queue, hqueue⟩ := List.getLast?_eq_some_iff.1 hqueue
    rw [hqueue, List.foldl_append]
    cases on <;> rfl

/-- What a call of the hub writes comes last. -/
theorem settled_call (s : DisplaySystem) (op : Op) :
    (s.call op).settled = (message s.hub op).getLast?.getD s.settled := by
  rw [settled_eq, settled_eq, call, List.getLast?_append]
  cases (message s.hub op).getLast? <;> rfl

/-- The attempts and the phone's session do not matter. -/
theorem Agrees.congr (ha : s.Agrees) {a : ℕ → Attempt} {session : Bool} :
    Agrees { s with attempt := a, session := session } :=
  ⟨ha.header, ha.route, ha.owed, ha.toUndo, ha.toUndo_of_owed⟩

/-! ### One call of the hub -/

/-- The debt once a session has ended. -/
theorem displayPowerOff_restoreDisplay {h : Hub} {route : Option RouteId}
    (hopen : ∀ r, route = some r → (h.route r).closed = false) :
    (h.restoreDisplay route true).1.displayPowerOff = (h.displayPowerOff && !route.isSome) := by
  rw [restoreDisplay]
  cases hoff : h.displayPowerOff with
  | false => simp [hoff]
  | true =>
    cases route with
    | none => simp [sendDisplayOn, hoff]
    | some r => simp [sendDisplayOn, hopen r rfl, setDisplayPowerOff]

theorem displayPowerOff_turnDisplayOff {h : Hub} {r : RouteId}
    (hopen : (h.route r).closed = false) : (h.turnDisplayOff r true).1.displayPowerOff = true := by
  obtain ⟨-, he⟩ | ⟨-, hok, -⟩ | ⟨-, -, he⟩ := turnDisplayOff_cases hopen true
  · rw [he]
    rfl
  · cases hok
  · rw [he]
    rfl

theorem displayPowerOff_close (h : Hub) (route : Option RouteId) :
    (h.close route).displayPowerOff = h.displayPowerOff := by
  rw [close_eq]

/-- The debt after a call. -/
def debtAfter (h : Hub) : Op → Bool
  | .beginSession => h.displayPowerOff && !h.controlRoute.isSome
  | .endSession g =>
    if h.accepts g then h.displayPowerOff && !h.controlRoute.isSome else h.displayPowerOff
  | .setSession g _ =>
    if h.accepts g then h.displayPowerOff || h.controlRoute.isSome else h.displayPowerOff
  | .register g =>
    if h.accepts g then h.displayPowerOff || h.screenHeaderReady else h.displayPowerOff
  | .clear _ | .write _ | .frame .. => h.displayPowerOff

/-- **The debt** is paid when a session ends with a route, and made when a header and a route come
together. -/
theorem displayPowerOff_perform {h : Hub} (hi : DebtInv h) (op : Op) :
    (h.perform true op).displayPowerOff = debtAfter h op := by
  have hopen (r : RouteId) (hr : h.controlRoute = some r) : (h.route r).closed = false :=
    (hi.current r hr).2.2.1
  cases op with
  | beginSession =>
    show (h.beginScreenSession true).1.displayPowerOff =
      (h.displayPowerOff && !h.controlRoute.isSome)
    unfold beginScreenSession
    cases hact : h.screenActive with
    | false =>
      cases hr : h.controlRoute with
      | none => exact (Bool.and_true _).symm
      | some r => exact absurd (hi.current r hr).1 (by rw [hact]; decide)
    | true =>
      exact (displayPowerOff_close _ _).trans
        (displayPowerOff_restoreDisplay (h := h.endScreenSessionLocked.1) hopen)
  | endSession g =>
    show (h.endScreenSession g true).1.displayPowerOff =
      if h.accepts g then h.displayPowerOff && !h.controlRoute.isSome else h.displayPowerOff
    unfold endScreenSession
    split
    · exact (displayPowerOff_close _ _).trans
        (displayPowerOff_restoreDisplay (h := h.endScreenSessionLocked.1.clearReplay) hopen)
    · rfl
  | setSession g session =>
    show (h.setScreenSession g session true).1.displayPowerOff =
      if h.accepts g then h.displayPowerOff || h.controlRoute.isSome else h.displayPowerOff
    unfold setScreenSession
    split
    · rename_i hacc
      have hdesired := hi.desired.trans (accepts_iff.1 hacc).1
      dsimp only
      split
      · rename_i r hr
        have hr' : h.controlRoute = some r := hr
        rw [hr', Option.isSome_some, Bool.or_true]
        split
        · exact displayPowerOff_turnDisplayOff (hopen r hr')
        · exact absurd hdesired ‹_›
      · rename_i hr
        have hr' : h.controlRoute = none := hr
        rw [hr', Option.isSome_none, Bool.or_false]
        rfl
    · rfl
  | register g =>
    show (h.registerControlRoute g true).1.displayPowerOff =
      if h.accepts g then h.displayPowerOff || h.screenHeaderReady else h.displayPowerOff
    unfold registerControlRoute
    split
    · rename_i hacc
      have hdesired := hi.desired.trans (accepts_iff.1 hacc).1
      rw [close_eq]
      cases hready : h.screenHeaderReady with
      | false => simp [installRoute]
      | true =>
        simp only [installRoute, hdesired, Bool.not_true, Bool.or_false, Bool.or_true,
          Bool.false_eq_true, if_false]
        exact displayPowerOff_turnDisplayOff (by simp)
    · rfl
  | clear route =>
    show (h.clearControlRoute route).displayPowerOff = h.displayPowerOff
    unfold clearControlRoute detachRoute
    by_cases hr : h.controlRoute = route
    · rw [if_pos hr]
      exact displayPowerOff_close _ _
    · rw [if_neg hr]
      rfl
  | write data =>
    show (h.writeControl data true).1.displayPowerOff = h.displayPowerOff
    unfold writeControl
    split
    · rfl
    · split <;> rfl
  | frame g data =>
    show (h.broadcastScreenFrame g data).1.displayPowerOff = h.displayPowerOff
    unfold broadcastScreenFrame
    split
    · unfold publishFrame offerFrame cacheFrame
      split <;> rfl
    · rfl

/-- The message of a session that ends. -/
theorem message_of_pendingOn {h : Hub} (hi : DebtInv h) {op : Op}
    (hop : h.pendingWrite op = h.pendingOn) :
    message h op = if h.displayPowerOff && h.controlRoute.isSome then [true] else [] := by
  rw [message, hop, pendingOn]
  cases hr : h.controlRoute with
  | none => simp
  | some r =>
    have hopen := (hi.current r hr).2.2.1
    cases hoff : h.displayPowerOff <;> simp [hopen]

/-- Whether the panel is to be on, after a call. -/
def settledAfter (s : DisplaySystem) : Op → Bool
  | .beginSession => s.settled || (s.hub.displayPowerOff && s.hub.controlRoute.isSome)
  | .endSession g =>
    if s.hub.accepts g then
      s.settled || (s.hub.displayPowerOff && s.hub.controlRoute.isSome)
    else s.settled
  | .setSession g _ =>
    if s.hub.accepts g then s.settled && !s.hub.controlRoute.isSome else s.settled
  | .register g => if s.hub.accepts g then s.settled && !s.hub.screenHeaderReady else s.settled
  | .clear _ | .write _ | .frame .. => s.settled

/-- **The panel** is to be on when a session ends with an OFF to undo and a route, and off when a
header and a route come together. -/
theorem settled_perform (hi : DebtInv s.hub)
    (howed : s.hub.displayPowerOff = true → s.settled = false) (op : Op) :
    (s.call op).settled = settledAfter s op := by
  have hon (b : Bool) : (if b then [true] else []).getLast?.getD s.settled = (s.settled || b) := by
    cases b
    · exact (Bool.or_false _).symm
    · exact (Bool.or_true _).symm
  have hoff (b : Bool) : (if b then [false] else []).getLast?.getD s.settled =
      (s.settled && !b) := by
    cases b
    · exact (Bool.and_true _).symm
    · exact (Bool.and_false _).symm
  rw [settled_call]
  cases op with
  | beginSession =>
    show _ = (s.settled || (s.hub.displayPowerOff && s.hub.controlRoute.isSome))
    cases hact : s.hub.screenActive with
    | true =>
      have hop : s.hub.pendingWrite .beginSession = s.hub.pendingOn := if_pos hact
      rw [message_of_pendingOn hi hop, hon]
    | false =>
      have hmessage : message s.hub .beginSession = [] := by simp [message, pendingWrite, hact]
      cases hr : s.hub.controlRoute with
      | none =>
        rw [hmessage, Option.isSome_none, Bool.and_false, Bool.or_false]
        rfl
      | some r => exact absurd (hi.current r hr).1 (by rw [hact]; decide)
  | endSession g =>
    show _ = if s.hub.accepts g then
      s.settled || (s.hub.displayPowerOff && s.hub.controlRoute.isSome) else s.settled
    split
    · rename_i hacc
      have hop : s.hub.pendingWrite (.endSession g) = s.hub.pendingOn := if_pos hacc
      rw [message_of_pendingOn hi hop, hon]
    · rename_i hacc
      have hmessage : message s.hub (.endSession g) = [] := by simp [message, pendingWrite, hacc]
      rw [hmessage]
      rfl
  | setSession g session =>
    show _ = if s.hub.accepts g then s.settled && !s.hub.controlRoute.isSome else s.settled
    split
    · rename_i hacc
      have hdesired := hi.desired.trans (accepts_iff.1 hacc).1
      cases hr : s.hub.controlRoute with
      | none =>
        have hmessage : message s.hub (.setSession g session) = [] := by
          simp [message, pendingWrite, hr]
        rw [hmessage, Option.isSome_none, Bool.not_false, Bool.and_true]
        rfl
      | some r =>
        have hopen := (hi.current r hr).2.2.1
        have hmessage : message s.hub (.setSession g session) =
            if !(s.hub.route r).displayOffSent then [false] else [] := by
          cases hsent : (s.hub.route r).displayOffSent <;>
            simp [message, pendingWrite, pendingOff, hr, hacc, hdesired, hopen, hsent]
        rw [hmessage, hoff, Option.isSome_some, Bool.not_not, Bool.not_true, Bool.and_false]
        -- An OFF that was sent on this route before is still owed.
        cases hsent : (s.hub.route r).displayOffSent with
        | false => exact Bool.and_false _
        | true => rw [howed (hi.owed r hr hsent), Bool.false_and]
    · rename_i hacc
      have hmessage : message s.hub (.setSession g session) = [] := by
        cases hr : s.hub.controlRoute <;> simp [message, pendingWrite, hr, hacc]
      rw [hmessage]
      rfl
  | register g =>
    show _ = if s.hub.accepts g then s.settled && !s.hub.screenHeaderReady else s.settled
    split
    · rename_i hacc
      have hdesired := hi.desired.trans (accepts_iff.1 hacc).1
      have hmessage : message s.hub (.register g) =
          if s.hub.screenHeaderReady then [false] else [] := by
        cases hready : s.hub.screenHeaderReady <;>
          simp [message, pendingWrite, hacc, hdesired, hready]
      rw [hmessage, hoff]
    · rename_i hacc
      have hmessage : message s.hub (.register g) = [] := by simp [message, pendingWrite, hacc]
      rw [hmessage]
      rfl
  | clear | frame => rfl
  | write data =>
    have hmessage : message s.hub (.write data) = [] := by
      simp only [message, pendingWrite]
      cases s.hub.controlRoute with
      | none => rfl
      | some r => cases hclosed : (s.hub.route r).closed <;> simp
    rw [hmessage]
    rfl

/-- The header after a call. -/
def headerAfter (h : Hub) : Op → Bool
  | .beginSession => false
  | .setSession g _ => h.screenHeaderReady || h.accepts g
  | .endSession g => if h.accepts g then false else h.screenHeaderReady
  | .register _ | .clear _ | .write _ | .frame .. => h.screenHeaderReady

theorem screenHeaderReady_perform (h : Hub) (op : Op) :
    (h.perform true op).screenHeaderReady = headerAfter h op := by
  cases op with
  | beginSession => rfl
  | setSession g session =>
    exact congrArg (fun l ↦ l.2.2) (lifecycle_call h (.setSession g session true))
  | register g => exact congrArg (fun l ↦ l.2.2) (lifecycle_call h (.register g true))
  | clear route => exact congrArg (fun l ↦ l.2.2) (lifecycle_call h (.clear route))
  | endSession g =>
    refine (congrArg (fun l ↦ l.2.2) (lifecycle_call h (.endSession g true))).trans ?_
    show (if h.accepts g then (_, _, false) else h.lifecycle).2.2 =
      if h.accepts g then false else h.screenHeaderReady
    split <;> rfl
  | write data =>
    show (h.writeControl data true).1.screenHeaderReady = h.screenHeaderReady
    unfold writeControl
    split
    · rfl
    · split <;> rfl
  | frame g data =>
    show (h.broadcastScreenFrame g data).1.screenHeaderReady = h.screenHeaderReady
    unfold broadcastScreenFrame
    split
    · unfold publishFrame offerFrame cacheFrame
      split <;> rfl
    · rfl

/-- **The history agrees** with the system after a call. -/
theorem Agrees.call (ha : s.Agrees) (hi : DebtInv s.hub) (op : Op) : (s.call op).Agrees := by
  have howed : s.hub.displayPowerOff = true → s.settled = false := by
    rw [← ha.owed, ← Bool.not_eq_true', ← ha.toUndo]
    exact ha.toUndo_of_owed
  suffices h : (s.historyAfter op).header = headerAfter s.hub op ∧
      (s.historyAfter op).route = (routingAfter s.hub op).1.isSome ∧
      (s.historyAfter op).owed = debtAfter s.hub op ∧
      (s.historyAfter op).toUndo = !(settledAfter s op) ∧
      ((s.historyAfter op).owed = true → (s.historyAfter op).toUndo = true) by
    obtain ⟨hheader, hroute, hdebt, hundo, hod⟩ := h
    exact ⟨hheader.trans (screenHeaderReady_perform s.hub op).symm,
      hroute.trans (congrArg (fun p ↦ p.1.isSome) (perform_routing s.hub true op)).symm,
      hdebt.trans (displayPowerOff_perform hi op).symm,
      hundo.trans (congrArg _ (settled_perform hi howed op)).symm, hod⟩
  obtain ⟨hheader, hroute, hdebt, hundo, hod⟩ := ha
  cases op with
  | beginSession =>
    simp only [historyAfter, PowerHistory.ended, headerAfter, routingAfter, debtAfter, settledAfter]
    grind
  | setSession g session =>
    simp only [historyAfter, PowerHistory.met, headerAfter, routingAfter, routing, debtAfter,
      settledAfter]
    grind
  | register g =>
    simp only [historyAfter, PowerHistory.met, headerAfter, routingAfter, routing, debtAfter,
      settledAfter]
    grind
  | clear route =>
    simp only [historyAfter, headerAfter, routingAfter, routing, debtAfter, settledAfter]
    grind
  | endSession g =>
    simp only [historyAfter, PowerHistory.ended, headerAfter, routingAfter, routing, debtAfter,
      settledAfter]
    grind
  | write | frame => exact ⟨hheader, hroute, hdebt, hundo, hod⟩

/-! ### One event -/

/-- Without a session every call but the begin of one is refused. -/
theorem accepts_of_inactive {h : Hub} (hact : h.screenActive = false) (g : ℕ) :
    h.accepts g = false := by
  rw [accepts, hact, Bool.false_and]

theorem setAttempt_ne_prepared {id : ℕ} {a : Attempt} (ha : s.attempt id ≠ .prepared)
    (huse : ¬(s.setAttempt id a).InUse) : ¬s.InUse := by
  rintro (hact | ⟨id', hid'⟩)
  · exact huse (Or.inl hact)
  · have hne : id' ≠ id := fun h ↦ ha (h ▸ hid')
    exact huse (Or.inr ⟨id', by simp [setAttempt, hne, hid']⟩)

/-- The calls that neither begin nor end a session keep the invariant. -/
theorem RestoreInv.call (hi : RestoreInv s) {op : Op}
    (hact : (s.hub.perform true op).screenActive = s.hub.screenActive)
    (hundo : s.hub.screenActive = false → (s.historyAfter op).toUndo = s.history.toUndo) :
    RestoreInv (s.call op) := by
  refine ⟨hi.debt.perform true op, hi.agrees.call hi.debt op, fun huse ↦ ?_⟩
  have hs : ¬s.InUse := fun hs ↦ huse (hs.imp_left hact.trans)
  have hinactive : s.hub.screenActive = false := by
    rw [← Bool.not_eq_true]
    exact fun h ↦ hs (Or.inl h)
  exact (hundo hinactive).trans (hi.restored hs)

/-- The end of a session leaves nothing to undo, or a start that was prepared. -/
theorem RestoreInv.endSession (hi : RestoreInv s) {g : ℕ} (hundone : s.Undone (.endSession g)) :
    RestoreInv (s.call (.endSession g)) := by
  refine ⟨hi.debt.perform true (.endSession g), hi.agrees.call hi.debt _, fun huse ↦ ?_⟩
  have hprepared : ¬∃ id, s.attempt id = .prepared := fun h ↦ huse (Or.inr h)
  by_cases hacc : s.hub.accepts g = true
  · have hhistory : s.historyAfter (.endSession g) = s.history.ended := if_pos hacc
    show (s.historyAfter (.endSession g)).toUndo = false
    rw [hhistory, PowerHistory.ended]
    rcases hundone hacc with ⟨howed, hroute⟩ | h | hundo
    · rw [howed, hroute]
      exact Bool.and_false _
    · exact absurd h hprepared
    · rw [hundo, Bool.false_and]
  · -- An end that is refused changes nothing.
    have hhistory : s.historyAfter (.endSession g) = s.history := if_neg hacc
    have hhub : s.hub.perform true (.endSession g) = s.hub := by
      simp [perform, endScreenSession, hacc]
    show (s.historyAfter (.endSession g)).toUndo = false
    rw [hhistory]
    refine hi.restored fun hs ↦ huse (hs.imp_left fun hact ↦ ?_)
    exact (congrArg screenActive hhub).trans hact

/-- The phone turns the panel off when it prepares, and an ON that is on its way turns it on. -/
theorem Agrees.prepare (ha : s.Agrees) {a : ℕ → Attempt} (screenOn : Bool) :
    Agrees { s with
      attempt := a
      panel := Phone.ensureDisplayOffAndAwake screenOn
      session := true
      history := { s.history with toUndo := s.queue.getLast? ≠ some true } } := by
  have hpanel : Phone.ensureDisplayOffAndAwake screenOn = false := by cases screenOn <;> rfl
  refine ⟨ha.header, ha.route, ha.owed, ?_, fun howed ↦ ?_⟩
  · rw [settled_eq, hpanel]
    dsimp only
    cases hlast : s.queue.getLast? with
    | none => rfl
    | some on => cases on <;> rfl
  · have hsettled := ha.toUndo.symm.trans (ha.toUndo_of_owed howed)
    rw [Bool.not_eq_true', settled_eq] at hsettled
    refine decide_eq_true fun hlast ↦ ?_
    rw [hlast] at hsettled
    cases hsettled

/-- **One event keeps the invariant.** -/
theorem RestoreInv.step (hi : RestoreInv s) {e : DisplayEvent} (hundone : s.Undone e)
    (h : s.step e = some t) : RestoreInv t := by
  cases e with
  | dial id =>
    simp only [DisplaySystem.step] at h
    split at h <;> cases h
    rename_i hid
    exact ⟨hi.debt, hi.agrees.congr, fun huse ↦
      hi.restored (setAttempt_ne_prepared (by rw [hid]; decide) huse)⟩
  | prepare id screenOn =>
    simp only [DisplaySystem.step] at h
    split at h
    · cases h
    · split at h <;> cases h
      · refine ⟨hi.debt, hi.agrees.prepare screenOn, fun huse ↦ absurd (Or.inr ⟨id, ?_⟩) huse⟩
        simp [setAttempt]
      · -- The phone prepares for nobody: only an ON that is on its way lights the panel again.
        rename_i hid
        refine ⟨hi.debt, hi.agrees.prepare screenOn, fun huse ↦ ?_⟩
        have huse' : ¬s.InUse := setAttempt_ne_prepared (by rw [hid]; decide) huse
        rcases hundone hid with hs | hlast
        · exact absurd hs huse'
        · exact decide_eq_false (not_not.2 hlast)
  | giveUp id =>
    simp only [DisplaySystem.step] at h
    split at h <;> cases h
    · rename_i hid
      exact ⟨hi.debt, hi.agrees.congr, fun huse ↦
        hi.restored (setAttempt_ne_prepared (by rw [hid]; decide) huse)⟩
    · rename_i hid
      refine ⟨hi.debt, hi.agrees.congr, fun huse ↦ ?_⟩
      rcases hundone hid with hact | ⟨id', hne, hid'⟩ | hundo
      · exact absurd (Or.inl hact) huse
      · exact absurd (Or.inr ⟨id', by simp [setAttempt, hne, hid']⟩) huse
      · exact hundo
  | begin id =>
    simp only [DisplaySystem.step] at h
    split at h <;> cases h
    exact ⟨hi.debt.beginScreenSession true, (hi.agrees.call hi.debt .beginSession).congr,
      fun huse ↦ absurd (Or.inl rfl) huse⟩
  | setSession g session =>
    have hlife := lifecycle_call s.hub (.setSession g session true)
    simp only [lifecycle, Prod.mk.injEq] at hlife
    cases h
    refine hi.call hlife.2.1 fun hact ↦ ?_
    rw [historyAfter, accepts_of_inactive hact, if_neg Bool.false_ne_true]
  | register g =>
    have hlife := lifecycle_call s.hub (.register g true)
    simp only [lifecycle, Prod.mk.injEq] at hlife
    cases h
    refine hi.call hlife.2.1 fun hact ↦ ?_
    rw [historyAfter, accepts_of_inactive hact, if_neg Bool.false_ne_true]
  | clear route =>
    have hlife := lifecycle_call s.hub (.clear route)
    simp only [lifecycle, Prod.mk.injEq] at hlife
    cases h
    refine hi.call hlife.2.1 fun _ ↦ ?_
    rw [historyAfter]
    split <;> rfl
  | endSession g =>
    cases h
    exact hi.endSession hundone
  | handle =>
    simp only [DisplaySystem.step] at h
    split at h <;> cases h
    rename_i on rest hqueue
    have hsettled : s.settled = rest.foldl (fun panel on ↦ Phone.setDisplayPower false on panel)
        (Phone.setDisplayPower false on s.panel) := by
      rw [settled, hqueue, List.foldl_cons]
    exact ⟨hi.debt, ⟨hi.agrees.header, hi.agrees.route, hi.agrees.owed,
      hi.agrees.toUndo.trans (congrArg _ hsettled), hi.agrees.toUndo_of_owed⟩, hi.restored⟩
  | finish =>
    simp only [DisplaySystem.step] at h
    split at h <;> cases h
    exact ⟨hi.debt, hi.agrees.congr, hi.restored⟩

/-! ### The panel -/

/-- **Display power is restored** in every run in which each session and each failed start is
undone: whenever the host has no session and the phone has finished its side, the panel is on. -/
theorem display_restored {events : List DisplayEvent}
    (hundone : Along DisplaySystem.step Undone start events)
    (hrun : exec DisplaySystem.step start events = some s) (hidle : s.Idle) : s.panel = true := by
  have hi : RestoreInv s := exec_invariant_along
    (fun _ _ _ hundone hi h ↦ RestoreInv.step hi hundone h) hundone restoreInv_start hrun
  obtain ⟨huse, -, hqueue⟩ := hidle
  have hs := hi.agrees.toUndo.symm.trans (hi.restored huse)
  rwa [Bool.not_eq_false', settled, hqueue] at hs

/-- An attempt that was closed after its preparation leaves none prepared. -/
theorem attempt_ne_prepared (id : ℕ) : Function.update (Function.update (Function.update
    start.attempt 0 .dialing) 0 .prepared) 0 .closed id ≠ .prepared := by
  by_cases h0 : id = 0
  · subst h0
    decide
  · simp [start, h0]

/-- A session whose header and control route arrive, from the dial to its end. -/
def wholeSession : List DisplayEvent :=
  [.dial 0, .prepare 0 false, .begin 0, .setSession 1 ⟨1080, 2400⟩, .register 1, .handle,
    .endSession 1, .finish, .handle]

theorem display_restored_wholeSession :
    ∃ s, exec DisplaySystem.step start wholeSession = some s ∧ s.panel = true := by
  have hundone : Along DisplaySystem.step Undone start wholeSession := by
    refine .cons trivial rfl (.cons (fun h ↦ ?_) rfl (.cons trivial rfl (.cons trivial rfl
      (.cons trivial rfl (.cons trivial rfl (.cons (fun _ ↦ Or.inl ⟨rfl, rfl⟩) rfl
      (.cons trivial rfl (.cons trivial rfl (along_nil _)))))))))
    cases h
  refine ⟨_, rfl, display_restored hundone rfl ⟨?_, rfl, rfl⟩⟩
  rintro (hact | ⟨id, hid⟩)
  · cases hact
  · exact attempt_ne_prepared id hid

/-- **A start that fails after the phone has prepared** leaves the panel dark: no session of the
host ever turned it off, so none turns it on. -/
theorem failed_start_leaves_panel_off :
    ¬∀ (events : List DisplayEvent) (s : DisplaySystem),
      exec DisplaySystem.step start events = some s → s.Idle → s.panel = true := by
  intro hall
  have hpanel := hall [.dial 0, .prepare 0 true, .giveUp 0, .finish] _ rfl ⟨?_, rfl, rfl⟩
  · cases hpanel
  · rintro (hact | ⟨id, hid⟩)
    · cases hact
    · exact attempt_ne_prepared id hid

end DisplaySystem

end AllRelay
