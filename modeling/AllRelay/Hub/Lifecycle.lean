import AllRelay.Hub.State
import Mathlib.Data.List.Induction

/-!
# The screen lifecycle operations of the hub, run one after another

`BeginScreenSession`, `SetScreenSession`, `RegisterControlRoute`, `ClearControlRoute` and
`EndScreenSession` hold `displayMu` from their first to their last action, so they never overlap
each other. Here each is one function on the hub, put together from the sections of `Hub.State` in
the order of the source. An operation calls a route's write function at most once, and the argument
`ok` says whether that call returns nil.

`Call` is a call of one of these operations with its arguments, `run` performs a sequence of them on
a new hub.
-/

namespace AllRelay.Hub

/-! ### Writes on a route -/

/-- `controlRoute.sendDisplayOff`. -/
def sendDisplayOff (h : Hub) (r : RouteId) (ok : Bool) : Hub × Option ControlError :=
  if (h.route r).closed then (h, some .noControlRoute)
  else if (h.route r).displayOffSent then (h, none)
  else if ok then ((h.recordWrite r (.display false) true).markOffSent r, none)
  else (h.recordWrite r (.display false) false, some .writeFailed)

/-- `controlRoute.sendDisplayOn`, whose receiver may be nil. -/
def sendDisplayOn (h : Hub) (route : Option RouteId) (ok : Bool) : Hub × Option ControlError :=
  match route with
  | none => (h, some .noControlRoute)
  | some r =>
    if (h.route r).closed then (h, some .noControlRoute)
    else (h.recordWrite r (.display true) ok, if ok then none else some .writeFailed)

/-- `controlRoute.close`, whose receiver may be nil. -/
def close (h : Hub) (route : Option RouteId) : Hub :=
  route.elim h h.closeRoute

/-- Closing a route changes nothing but that route's `closed` flag. -/
theorem close_eq (h : Hub) (route : Option RouteId) :
    h.close route = { h with route := (h.close route).route } := by
  cases route <;> rfl

@[simp]
theorem close_route_displayOffSent (h : Hub) (route : Option RouteId) (r : RouteId) :
    ((h.close route).route r).displayOffSent = (h.route r).displayOffSent := by
  cases route with
  | none => rfl
  | some r' =>
    by_cases hr : r = r'
    · subst hr; simp [close, closeRoute]
    · simp [close, closeRoute, hr]

/-- `Hub.restoreDisplay`. -/
def restoreDisplay (h : Hub) (route : Option RouteId) (ok : Bool) : Hub × Option ControlError :=
  if !h.displayPowerOff then (h, none)
  else
    match h.sendDisplayOn route ok with
    | (h', some err) => (h', some err)
    | (h', none) => (h'.setDisplayPowerOff false, none)

/-- **What a restore can do**: it leaves the hub alone, or calls the write function of an open route
once, which pays the debt exactly when it succeeds. -/
theorem restoreDisplay_cases (h : Hub) (route : Option RouteId) (ok : Bool) :
    (∃ err, h.restoreDisplay route ok = (h, err) ∧ (err = none → h.displayPowerOff = false)) ∨
    (∃ r, route = some r ∧ (h.route r).closed = false ∧ h.displayPowerOff = true ∧
      h.restoreDisplay route ok = (h.recordWrite r (.display true) false, some .writeFailed)) ∨
    (∃ r, route = some r ∧ (h.route r).closed = false ∧ h.displayPowerOff = true ∧
      h.restoreDisplay route ok =
        ((h.recordWrite r (.display true) true).setDisplayPowerOff false, none)) := by
  cases hoff : h.displayPowerOff with
  | false => exact Or.inl ⟨none, by simp [restoreDisplay, hoff], fun _ ↦ rfl⟩
  | true =>
    cases route with
    | none => exact Or.inl ⟨some .noControlRoute, by simp [restoreDisplay, hoff, sendDisplayOn]⟩
    | some r =>
      cases hr : (h.route r).closed with
      | true =>
        exact Or.inl ⟨some .noControlRoute, by simp [restoreDisplay, hoff, sendDisplayOn, hr]⟩
      | false =>
        cases ok with
        | false => exact Or.inr (Or.inl ⟨r, rfl, hr, rfl, by
            simp [restoreDisplay, hoff, sendDisplayOn, hr]⟩)
        | true => exact Or.inr (Or.inr ⟨r, rfl, hr, rfl, by
            simp [restoreDisplay, hoff, sendDisplayOn, hr]⟩)

/-- The automatic OFF of `SetScreenSession` and `RegisterControlRoute`, with the caller's
`displayPowerOff = true` after it. -/
def turnDisplayOff (h : Hub) (r : RouteId) (ok : Bool) : Hub × Option ControlError :=
  match h.sendDisplayOff r ok with
  | (h, none) => (h.setDisplayPowerOff true, none)
  | (h, some err) => (h, some err)

/-- **What an automatic OFF can do on an open route**: nothing is written if an OFF was sent on it
before, and otherwise the write function is called once. -/
theorem turnDisplayOff_cases {h : Hub} {r : RouteId} (hr : (h.route r).closed = false)
    (ok : Bool) :
    ((h.route r).displayOffSent = true ∧
      h.turnDisplayOff r ok = (h.setDisplayPowerOff true, none)) ∨
    ((h.route r).displayOffSent = false ∧ ok = false ∧
      h.turnDisplayOff r ok = (h.recordWrite r (.display false) false, some .writeFailed)) ∨
    ((h.route r).displayOffSent = false ∧ ok = true ∧
      h.turnDisplayOff r ok =
        (((h.recordWrite r (.display false) true).markOffSent r).setDisplayPowerOff true,
          none)) := by
  cases hs : (h.route r).displayOffSent with
  | true => exact Or.inl ⟨rfl, by simp [turnDisplayOff, sendDisplayOff, hr, hs]⟩
  | false =>
    cases ok with
    | false => exact Or.inr (Or.inl ⟨rfl, rfl, by simp [turnDisplayOff, sendDisplayOff, hr, hs]⟩)
    | true => exact Or.inr (Or.inr ⟨rfl, rfl, by simp [turnDisplayOff, sendDisplayOff, hr, hs]⟩)

/-! ### The operations -/

/-- `Hub.BeginScreenSession`. -/
def beginScreenSession (h : Hub) (ok : Bool) : Hub × ℕ :=
  let h :=
    if h.screenActive then
      let (h, route) := h.endScreenSessionLocked
      (h.restoreDisplay route ok).1.close route
    else h
  let h := h.startGeneration
  (h, h.screenGeneration)

/-- `Hub.SetScreenSession`. -/
def setScreenSession (h : Hub) (generation : ℕ) (session : ScreenSession) (ok : Bool) :
    Hub × Bool :=
  if h.accepts generation then
    let h := ((h.cacheSession session).markHeaderReady).broadcastEvent (.screenSession session)
    match h.controlRoute with
    | some r => if h.displayOffDesired then ((h.turnDisplayOff r ok).1, true) else (h, true)
    | none => (h, true)
  else (h, false)

/-- `Hub.EndScreenSession`. -/
def endScreenSession (h : Hub) (generation : ℕ) (ok : Bool) : Hub × Option ControlError :=
  if h.accepts generation then
    let (h, route) := h.endScreenSessionLocked
    let (h, err) := h.clearReplay.restoreDisplay route ok
    (h.close route, err)
  else (h, none)

/-- `Hub.RegisterControlRoute`. -/
def registerControlRoute (h : Hub) (generation : ℕ) (ok : Bool) :
    Hub × Option RouteId × Option ControlError :=
  if h.accepts generation then
    let h := (h.close h.controlRoute).installRoute generation
    let r := h.nextRoute - 1
    if !h.screenHeaderReady || !h.displayOffDesired then (h, some r, none)
    else
      let (h, err) := h.turnDisplayOff r ok
      (h, some r, err)
  else (h, none, none)

/-- `Hub.ClearControlRoute`. -/
def clearControlRoute (h : Hub) (route : Option RouteId) : Hub :=
  let (h, shouldClose) := h.detachRoute route
  if shouldClose then h.close route else h

/-- `Hub.WriteControl`, with `controlRoute.writeControl`. -/
def writeControl (h : Hub) (data : Bytes) (ok : Bool) : Hub × Option ControlError :=
  match h.controlRoute with
  | none => (h, some .noControlRoute)
  | some r =>
    if (h.route r).closed then (h, some .noControlRoute)
    else (h.recordWrite r (.control data) ok, if ok then none else some .writeFailed)

/-- `Hub.BroadcastScreenFrame`. -/
def broadcastScreenFrame (h : Hub) (generation : ℕ) (data : Bytes) : Hub × Bool :=
  if h.accepts generation then (h.publishFrame data, true) else (h, false)

/-! ### Calls -/

/-- A call of an operation of the hub with its arguments. -/
inductive Op where
  /-- `BeginScreenSession()`. -/
  | beginSession
  /-- `SetScreenSession(generation, width, height)`. -/
  | setSession (generation : ℕ) (session : ScreenSession)
  /-- `RegisterControlRoute(generation, write)`. -/
  | register (generation : ℕ)
  /-- `ClearControlRoute(route)`. -/
  | clear (route : Option RouteId)
  /-- `EndScreenSession(generation)`. -/
  | endSession (generation : ℕ)
  /-- `WriteControl(data)`. -/
  | write (data : Bytes)
  /-- `BroadcastScreenFrame(generation, data)`. -/
  | frame (generation : ℕ) (data : Bytes)
deriving DecidableEq, Repr

/-- The hub after a call; `ok` says whether a write function that the call invokes returns nil. -/
def perform (h : Hub) (ok : Bool) : Op → Hub
  | .beginSession => (h.beginScreenSession ok).1
  | .setSession g session => (h.setScreenSession g session ok).1
  | .register g => (h.registerControlRoute g ok).1
  | .clear route => h.clearControlRoute route
  | .endSession g => (h.endScreenSession g ok).1
  | .write data => (h.writeControl data ok).1
  | .frame g data => (h.broadcastScreenFrame g data).1

/-! ### What a call writes -/

/-- The write of `restoreDisplay` through a route. -/
def pendingOn (h : Hub) : Option (RouteId × RouteWrite) :=
  match h.controlRoute with
  | some r => if h.displayPowerOff && !(h.route r).closed then some (r, .display true) else none
  | none => none

/-- The write of `sendDisplayOff` on a route. -/
def pendingOff (h : Hub) (r : RouteId) : Option (RouteId × RouteWrite) :=
  if (h.route r).closed || (h.route r).displayOffSent then none else some (r, .display false)

/-- The route a call writes on and the message it writes. -/
def pendingWrite (h : Hub) : Op → Option (RouteId × RouteWrite)
  | .beginSession => if h.screenActive then h.pendingOn else none
  | .setSession g _ =>
    match h.controlRoute with
    | some r => if h.accepts g && h.displayOffDesired then h.pendingOff r else none
    | none => none
  | .register g =>
    if h.accepts g && h.screenHeaderReady && h.displayOffDesired then
      some (h.nextRoute, .display false)
    else none
  | .endSession g => if h.accepts g then h.pendingOn else none
  | .write data =>
    match h.controlRoute with
    | some r => if (h.route r).closed then none else some (r, .control data)
    | none => none
  | .clear _ | .frame .. => none

theorem close_writes (h : Hub) (route : Option RouteId) : (h.close route).writes = h.writes := by
  rw [close_eq]

theorem restoreDisplay_writes_eq (h : Hub) (route : Option RouteId) (ok : Bool) :
    (h.restoreDisplay route ok).1.writes =
      h.writes ++
        ((pendingOn { h with controlRoute := route }).map fun w ↦ (w.1, w.2, ok)).toList := by
  unfold restoreDisplay pendingOn
  cases hoff : h.displayPowerOff with
  | false => cases route <;> simp
  | true =>
    cases route with
    | none => simp [sendDisplayOn]
    | some r =>
      cases hclosed : (h.route r).closed <;> cases ok <;>
        simp [sendDisplayOn, hclosed, recordWrite, setDisplayPowerOff]

theorem turnDisplayOff_writes_eq (h : Hub) (r : RouteId) (ok : Bool) :
    (h.turnDisplayOff r ok).1.writes =
      h.writes ++ ((h.pendingOff r).map fun w ↦ (w.1, w.2, ok)).toList := by
  unfold turnDisplayOff sendDisplayOff pendingOff
  cases hclosed : (h.route r).closed <;> cases hsent : (h.route r).displayOffSent <;> cases ok <;>
    simp [recordWrite, setDisplayPowerOff, markOffSent]

/-- **A call writes its pending write**, and nothing else. -/
theorem perform_writes (h : Hub) (ok : Bool) (op : Op) :
    (h.perform ok op).writes =
      h.writes ++ ((h.pendingWrite op).map fun w ↦ (w.1, w.2, ok)).toList := by
  cases op with
  | beginSession =>
    show (h.beginScreenSession ok).1.writes = _
    unfold beginScreenSession
    cases hact : h.screenActive with
    | false => simp [pendingWrite, hact, startGeneration, clearReplay]
    | true =>
      simp only [pendingWrite, hact, if_true]
      show ((h.endScreenSessionLocked.1.restoreDisplay h.controlRoute ok).1.close
        h.controlRoute).writes = _
      rw [close_writes]
      exact restoreDisplay_writes_eq _ _ _
  | setSession g session =>
    show (h.setScreenSession g session ok).1.writes = _
    unfold setScreenSession
    simp only [pendingWrite]
    cases hacc : h.accepts g with
    | false => cases h.controlRoute <;> simp
    | true =>
      simp only [if_true, Bool.true_and]
      show Hub.writes (Prod.fst (match h.controlRoute with
        | some r => if h.displayOffDesired then (_, true) else (_, true)
        | none => (_, true))) = _
      cases hr : h.controlRoute with
      | none => simp [broadcastEvent, markHeaderReady, cacheSession]
      | some r =>
        cases h.displayOffDesired with
        | false => simp [broadcastEvent, markHeaderReady, cacheSession]
        | true => exact turnDisplayOff_writes_eq _ _ _
  | register g =>
    show (h.registerControlRoute g ok).1.writes = _
    have hwrites : ((h.close h.controlRoute).installRoute g).writes = h.writes :=
      close_writes h h.controlRoute
    have hflags : ∀ h' : Hub, h' = (h.close h.controlRoute).installRoute g →
        h'.screenHeaderReady = h.screenHeaderReady ∧ h'.displayOffDesired = h.displayOffDesired ∧
        h'.nextRoute - 1 = h.nextRoute := by
      rintro h' rfl
      rw [close_eq]
      exact ⟨rfl, rfl, rfl⟩
    obtain ⟨hready, hdesired, hnext⟩ := hflags _ rfl
    unfold registerControlRoute
    simp only [pendingWrite]
    cases h.accepts g with
    | false => simp
    | true =>
      simp only [if_true, hready, hdesired, hnext, Bool.true_and]
      cases h.screenHeaderReady <;> cases h.displayOffDesired <;> simp only [hwrites,
        Bool.not_false, Bool.not_true, Bool.or_true, Bool.or_false, Bool.and_false, Bool.and_true,
        if_true, Bool.false_eq_true, if_false, Option.map_none, Option.toList_none,
        List.append_nil]
      rw [turnDisplayOff_writes_eq, hwrites]
      have hfresh : ((h.close h.controlRoute).installRoute g).route h.nextRoute =
          ⟨g, false, false⟩ := by
        rw [close_eq]
        simp [installRoute]
      rw [pendingOff, hfresh]
      rfl
  | clear route =>
    show (h.clearControlRoute route).writes = _
    unfold clearControlRoute detachRoute
    by_cases hr : h.controlRoute = route
    · simp only [hr, if_true, pendingWrite]
      rw [close_writes]
      simp
    · simp [hr, pendingWrite]
  | endSession g =>
    show (h.endScreenSession g ok).1.writes = _
    unfold endScreenSession
    simp only [pendingWrite]
    cases h.accepts g with
    | false => simp
    | true =>
      show ((h.endScreenSessionLocked.1.clearReplay.restoreDisplay h.controlRoute ok).1.close
        h.controlRoute).writes = _
      rw [close_writes]
      exact restoreDisplay_writes_eq _ _ _
  | write data =>
    show (h.writeControl data ok).1.writes = _
    unfold writeControl
    simp only [pendingWrite]
    cases h.controlRoute with
    | none => simp
    | some r => cases hclosed : (h.route r).closed <;> simp [hclosed, recordWrite]
  | frame g data =>
    show (h.broadcastScreenFrame g data).1.writes = _
    unfold broadcastScreenFrame
    have hpublish : (h.publishFrame data).writes = h.writes := by
      unfold publishFrame offerFrame cacheFrame
      split <;> rfl
    cases h.accepts g <;> simp [pendingWrite, hpublish]

/-! ### What a call does to the control route -/

/-- The control route and the next route to be allocated. -/
def routing (h : Hub) : Option RouteId × RouteId :=
  (h.controlRoute, h.nextRoute)

theorem routing_close (h : Hub) (route : Option RouteId) : routing (h.close route) = routing h := by
  rw [close_eq]
  rfl

theorem routing_restoreDisplay (h : Hub) (route : Option RouteId) (ok : Bool) :
    routing (h.restoreDisplay route ok).1 = routing h := by
  obtain ⟨_, he, -⟩ | ⟨_, -, -, -, he⟩ | ⟨_, -, -, -, he⟩ := h.restoreDisplay_cases route ok <;>
    rw [he] <;> rfl

theorem routing_turnDisplayOff (h : Hub) (r : RouteId) (ok : Bool) :
    routing (h.turnDisplayOff r ok).1 = routing h := by
  rw [turnDisplayOff, sendDisplayOff]
  split_ifs <;> rfl

/-- The control route and the next route after a call. -/
def routingAfter (h : Hub) : Op → Option RouteId × RouteId
  | .beginSession => (none, h.nextRoute)
  | .setSession .. | .write _ | .frame .. => routing h
  | .register g => if h.accepts g then (some h.nextRoute, h.nextRoute + 1) else routing h
  | .clear route => if h.controlRoute = route then (none, h.nextRoute) else routing h
  | .endSession g => if h.accepts g then (none, h.nextRoute) else routing h

/-- A call never takes a route back. -/
theorem nextRoute_le_routingAfter (h : Hub) (op : Op) : h.nextRoute ≤ (routingAfter h op).2 := by
  cases op <;> simp only [routingAfter, routing] <;> grind

/-- **Begin, end and clear** take the control route away, and a registration replaces it. -/
theorem perform_routing (h : Hub) (ok : Bool) (op : Op) :
    routing (h.perform ok op) = routingAfter h op := by
  cases op with
  | beginSession =>
    show routing (h.beginScreenSession ok).1 = _
    have hended : routing (h.endScreenSessionLocked.1.restoreDisplay h.controlRoute ok).1 =
        (none, h.nextRoute) := routing_restoreDisplay _ _ _
    unfold beginScreenSession
    cases h.screenActive with
    | false => rfl
    | true =>
      exact congrArg (fun p : Option RouteId × RouteId ↦ (none, p.2))
        ((routing_close _ h.controlRoute).trans hended)
  | setSession g session =>
    show routing (h.setScreenSession g session ok).1 = routing h
    unfold setScreenSession
    split
    · dsimp only
      split
      · split
        · exact routing_turnDisplayOff _ _ _
        · rfl
      · rfl
    · rfl
  | register g =>
    show routing (h.registerControlRoute g ok).1 =
      if h.accepts g then (some h.nextRoute, h.nextRoute + 1) else routing h
    have hinstall : routing ((h.close h.controlRoute).installRoute g) =
        (some h.nextRoute, h.nextRoute + 1) := by
      rw [close_eq]
      rfl
    unfold registerControlRoute
    split
    · dsimp only
      split
      · exact hinstall
      · exact (routing_turnDisplayOff _ _ _).trans hinstall
    · rfl
  | clear route =>
    show routing (h.clearControlRoute route) =
      if h.controlRoute = route then (none, h.nextRoute) else routing h
    unfold clearControlRoute detachRoute
    by_cases hr : h.controlRoute = route
    · rw [if_pos hr, if_pos hr]
      exact routing_close _ _
    · rw [if_neg hr, if_neg hr]
      rfl
  | endSession g =>
    show routing (h.endScreenSession g ok).1 =
      if h.accepts g then (none, h.nextRoute) else routing h
    unfold endScreenSession
    split
    · exact (routing_close _ _).trans (routing_restoreDisplay _ _ _)
    · rfl
  | write data =>
    show routing (h.writeControl data ok).1 = routing h
    unfold writeControl
    split
    · rfl
    · split <;> rfl
  | frame g data =>
    show routing (h.broadcastScreenFrame g data).1 = routing h
    unfold broadcastScreenFrame
    split
    · unfold publishFrame offerFrame cacheFrame
      split <;> rfl
    · rfl

/-! ### Sequences of lifecycle calls -/

/-- A call of a lifecycle operation. -/
inductive Call where
  /-- `BeginScreenSession()`. -/
  | beginSession (ok : Bool)
  /-- `SetScreenSession(generation, width, height)`. -/
  | setSession (generation : ℕ) (session : ScreenSession) (ok : Bool)
  /-- `RegisterControlRoute(generation, write)`. -/
  | register (generation : ℕ) (ok : Bool)
  /-- `ClearControlRoute(route)`. -/
  | clear (route : Option RouteId)
  /-- `EndScreenSession(generation)`. -/
  | endSession (generation : ℕ) (ok : Bool)
deriving DecidableEq, Repr

/-- The hub after a call. -/
def call (h : Hub) : Call → Hub
  | .beginSession ok => (h.beginScreenSession ok).1
  | .setSession g session ok => (h.setScreenSession g session ok).1
  | .register g ok => (h.registerControlRoute g ok).1
  | .clear route => h.clearControlRoute route
  | .endSession g ok => (h.endScreenSession g ok).1

/-- The hub after a sequence of calls on a new hub. -/
def run (calls : List Call) : Hub :=
  calls.foldl call newHub

@[simp]
theorem run_nil : run [] = newHub :=
  rfl

@[simp]
theorem run_append_singleton (calls : List Call) (c : Call) :
    run (calls ++ [c]) = (run calls).call c := by
  simp [run]

/-- The induction rule over sequences of calls. -/
theorem run_induction {P : Hub → Prop} (hnew : P newHub) (hcall : ∀ h c, P h → P (call h c))
    (calls : List Call) : P (run calls) := by
  induction calls using List.reverseRecOn with
  | nil => exact hnew
  | append_singleton calls c ih => rw [run_append_singleton]; exact hcall _ c ih

end AllRelay.Hub
