import AllRelay.Hub.Lifecycle
import AllRelay.Library.LockedThreads

/-!
# The hub under concurrent calls

Any number of goroutines call the operations of the hub at the same time. This module is the program
they run: a program point (`Point`) for every place of `hub.go` where a goroutine may have to wait,
that is, before each acquisition of a lock, before the send on the `broadcast` channel and while a
write function is running, and the step from one point to the next (`advance`).

`displayMu`, `controlMu` and the `writeMu` of every route are locks of the program. `mu` is not: no
goroutine waits for anything while it holds `mu`, so a section under `mu` is part of one step. The
same holds for the sections under `controlMu` or a `writeMu` that contain no waiting point.

What the goroutines do is written to a log, oldest event first: each invocation of a route's write
function, with the generation of that route, and the moments after which the old routes have to be
silent.
-/

namespace AllRelay.Hub

/-- The locks of the hub. -/
inductive Lock where
  /-- `displayMu`. -/
  | displayMu
  /-- `controlMu`. -/
  | controlMu
  /-- The `writeMu` of a route. -/
  | writeMu (r : RouteId)
deriving DecidableEq, Repr

/-- The operation that detached a route and is about to close it. -/
inductive Closer where
  /-- `BeginScreenSession`, which replaces an active session. -/
  | beginSession
  /-- `EndScreenSession`. -/
  | endSession (generation : ℕ)
  /-- `ClearControlRoute`. -/
  | clear
deriving DecidableEq, Repr

/-- Where a goroutine is. -/
inductive Point where
  /-- In no operation. -/
  | idle
  /-- Called, before the first lock. -/
  | called (op : Op)
  /-- A lifecycle operation, before `controlMu`. -/
  | entered (op : Op)
  /-- An accepted `SetScreenSession`, before `mu`. -/
  | caching (generation : ℕ) (session : ScreenSession)
  /-- `SetScreenSession`, before the send of its event. -/
  | publishing (generation : ℕ) (session : ScreenSession)
  /-- `RegisterControlRoute`, before the close of the previous route. -/
  | replacing (generation : ℕ) (previous : RouteId)
  /-- Before the `writeMu` of `sendDisplayOff`. -/
  | turningOff (generation : ℕ) (r : RouteId)
  /-- In the write of an automatic OFF. -/
  | sendingOff (generation : ℕ) (r : RouteId)
  /-- An accepted `EndScreenSession`, before `mu`. -/
  | clearing (generation : ℕ) (route : Option RouteId)
  /-- Before `restoreDisplay`. -/
  | restoring (closer : Closer) (route : Option RouteId)
  /-- Before the `writeMu` of `sendDisplayOn`. -/
  | turningOn (closer : Closer) (r : RouteId)
  /-- In the write of an automatic ON. -/
  | sendingOn (closer : Closer) (r : RouteId)
  /-- Before the close of a detached route. -/
  | closing (closer : Closer) (route : Option RouteId)
  /-- `BeginScreenSession`, before the new generation. -/
  | starting
  /-- `WriteControl`, before the `writeMu` of the route it fetched. -/
  | writing (r : RouteId) (data : Bytes)
  /-- In the write of ordinary input. -/
  | sendingInput (r : RouteId) (data : Bytes)
  /-- An accepted `BroadcastScreenFrame`, before `mu`. -/
  | framing (generation : ℕ) (data : Bytes)
deriving DecidableEq, Repr

/-- The events of the log. -/
inductive Event where
  /-- The write function of route `r`, registered for `generation`, is invoked. -/
  | invoke (r : RouteId) (generation : ℕ) (w : RouteWrite)
  /-- `EndScreenSession` returned for the active generation. -/
  | ended (generation : ℕ)
  /-- A route was replaced or detached, and closed. -/
  | retired (r : RouteId)
deriving DecidableEq, Repr

/-- What the goroutines share. -/
structure Shared where
  /-- The hub. -/
  hub : Hub
  /-- The events so far, oldest first. -/
  log : List Event

/-- What the environment decides. -/
inductive Choice where
  /-- An idle goroutine calls an operation. -/
  | call (op : Op)
  /-- A goroutine goes on; `ok` says whether a write function that is running returns nil. -/
  | proceed (ok : Bool)
  /-- The event loop, the pumps or a WebSocket handler change the clients and the queues. -/
  | events (clients : ClientId → Bool) (client : ClientId → Client) (broadcast : List WSMessage)

namespace Point

/-- The locks held at a program point. -/
def holds : Point → Lock → Bool
  | .entered _, .displayMu => true
  | .caching .., l | .publishing .., l | .replacing .., l | .turningOff .., l
  | .clearing .., l | .starting, l => l = .displayMu ∨ l = .controlMu
  | .sendingOff _ r, l => l = .displayMu ∨ l = .controlMu ∨ l = .writeMu r
  | .restoring closer _, l | .turningOn closer _, l | .closing closer _, l =>
    l = .displayMu ∨ closer = .beginSession ∧ l = .controlMu
  | .sendingOn closer r, l =>
    l = .displayMu ∨ closer = .beginSession ∧ l = .controlMu ∨ l = .writeMu r
  | .sendingInput r _, l => l = .writeMu r
  | .framing .., l => l = .controlMu
  | _, _ => false

/-- The lock the next step acquires. -/
def needs : Point → Option Lock
  | .called (.write _) | .called (.frame ..) | .entered _ => some .controlMu
  | .called _ => some .displayMu
  | .replacing _ r | .turningOff _ r | .turningOn _ r | .closing _ (some r) | .writing r _ =>
    some (.writeMu r)
  | _ => none

/-- The generation a call carries. -/
def generation : Point → Option ℕ
  | .called (.setSession g _) | .called (.register g) | .called (.endSession g)
  | .called (.frame g _) | .entered (.setSession g _) | .entered (.register g)
  | .entered (.endSession g) | .caching g _ | .publishing g _ | .replacing g _ | .turningOff g _
  | .sendingOff g _ | .clearing g _ | .restoring (.endSession g) _ | .turningOn (.endSession g) _
  | .sendingOn (.endSession g) _ | .closing (.endSession g) _ | .framing g _ => some g
  | _ => none

/-- An `EndScreenSession` that was accepted and has not returned. -/
def Ending : Point → Prop
  | .clearing .. | .restoring (.endSession _) _ | .turningOn (.endSession _) _
  | .sendingOn (.endSession _) _ | .closing (.endSession _) _ => True
  | _ => False

end Point

/-! ### The steps -/

namespace Shared

/-- The write function of `r` is invoked. -/
def invoke (s : Shared) (r : RouteId) (w : RouteWrite) : Shared :=
  { s with log := s.log ++ [.invoke r (s.hub.route r).generation w] }

/-- A write function returned. -/
def returned (s : Shared) (r : RouteId) (w : RouteWrite) (ok : Bool) : Shared :=
  { s with hub := s.hub.recordWrite r w ok }

/-- `controlRoute.close` on a route that is not nil. -/
def retire (s : Shared) (r : RouteId) : Shared :=
  { hub := s.hub.closeRoute r, log := s.log ++ [.retired r] }

/-- The end of `RegisterControlRoute` from the allocation of its route on. -/
def install (s : Shared) (generation : ℕ) : Shared × Point :=
  let h := s.hub.installRoute generation
  ({ s with hub := h },
    if !h.screenHeaderReady || !h.displayOffDesired then .idle
    else .turningOff generation s.hub.nextRoute)

/-- The return of an operation that closed a detached route. -/
def closed (s : Shared) : Closer → Shared × Point
  | .beginSession => (s, .starting)
  | .endSession g => ({ s with log := s.log ++ [.ended g] }, .idle)
  | .clear => (s, .idle)

/-- The step of a goroutine that is in an operation; `ok` is the outcome of a running write. -/
def advance (s : Shared) (ok : Bool) : Point → Option (Shared × Point)
  | .idle => none
  | .called (.write data) =>
    match s.hub.controlRoute with
    | none => some (s, .idle)
    | some r => some (s, .writing r data)
  | .called (.frame g data) => some (s, if s.hub.accepts g then .framing g data else .idle)
  | .called op => some (s, .entered op)
  | .entered .beginSession =>
    if s.hub.screenActive then
      let (h, route) := s.hub.endScreenSessionLocked
      some ({ s with hub := h }, .restoring .beginSession route)
    else some (s, .starting)
  | .entered (.setSession g session) =>
    some (s, if s.hub.accepts g then .caching g session else .idle)
  | .entered (.register g) =>
    if s.hub.accepts g then
      match s.hub.controlRoute with
      | some previous => some (s, .replacing g previous)
      | none => some (s.install g)
    else some (s, .idle)
  | .entered (.clear route) =>
    let (h, shouldClose) := s.hub.detachRoute route
    some ({ s with hub := h }, if shouldClose then .closing .clear route else .idle)
  | .entered (.endSession g) =>
    if s.hub.accepts g then
      let (h, route) := s.hub.endScreenSessionLocked
      some ({ s with hub := h }, .clearing g route)
    else some (s, .idle)
  | .entered _ => none
  | .caching g session =>
    some ({ s with hub := (s.hub.cacheSession session).markHeaderReady }, .publishing g session)
  | .publishing g session =>
    -- The send blocks while the channel is full.
    if s.hub.broadcast.length < textQueueCapacity then
      let h := s.hub.broadcastEvent (.screenSession session)
      match h.controlRoute with
      | some r => some ({ s with hub := h }, if h.displayOffDesired then .turningOff g r else .idle)
      | none => some ({ s with hub := h }, .idle)
    else none
  | .replacing g previous => some ((s.retire previous).install g)
  | .turningOff g r =>
    if (s.hub.route r).closed then some (s, .idle)
    else if (s.hub.route r).displayOffSent then
      some ({ s with hub := s.hub.setDisplayPowerOff true }, .idle)
    else some (s.invoke r (.display false), .sendingOff g r)
  | .sendingOff _ r =>
    let s := s.returned r (.display false) ok
    some (if ok then { s with hub := (s.hub.markOffSent r).setDisplayPowerOff true } else s, .idle)
  | .clearing g route =>
    some ({ s with hub := s.hub.clearReplay }, .restoring (.endSession g) route)
  | .restoring closer route =>
    if !s.hub.displayPowerOff then some (s, .closing closer route)
    else
      match route with
      | none => some (s, .closing closer none)
      | some r => some (s, .turningOn closer r)
  | .turningOn closer r =>
    if (s.hub.route r).closed then some (s, .closing closer (some r))
    else some (s.invoke r (.display true), .sendingOn closer r)
  | .sendingOn closer r =>
    let s := s.returned r (.display true) ok
    some (if ok then { s with hub := s.hub.setDisplayPowerOff false } else s,
      .closing closer (some r))
  | .closing closer none => some (s.closed closer)
  | .closing closer (some r) => some ((s.retire r).closed closer)
  | .starting => some ({ s with hub := s.hub.startGeneration }, .idle)
  | .writing r data =>
    if (s.hub.route r).closed then some (s, .idle)
    else some (s.invoke r (.control data), .sendingInput r data)
  | .sendingInput r data => some (s.returned r (.control data) ok, .idle)
  | .framing _ data => some ({ s with hub := s.hub.publishFrame data }, .idle)

/-- The step of a goroutine. -/
def next : Choice → Shared → Point → Option (Shared × Point)
  | .call op, s, .idle => some (s, .called op)
  | .call _, _, _ => none
  | .events clients client broadcast, s, .idle =>
    some ({ s with hub := { s.hub with clients, client, broadcast } }, .idle)
  | .events .., _, _ => none
  | .proceed ok, s, p => s.advance ok p

/-- A step acquires no lock but the one it needs. -/
theorem advance_acquires {ok : Bool} {s s' : Shared} {p p' : Point} {k : Lock}
    (h : s.advance ok p = some (s', p')) (hk : p'.holds k = true) :
    p.holds k = true ∨ p.needs = some k := by
  cases p with
  | idle => cases h
  | called op =>
    cases op <;> simp only [advance] at h
    case write => split at h <;> cases h <;> cases hk
    case frame =>
      cases h
      split at hk
      · simp_all [Point.holds, Point.needs]
      · cases hk
    all_goals cases h; cases k <;> simp_all [Point.holds, Point.needs]
  | entered op =>
    cases op <;> simp only [advance, install] at h <;> (try split at h) <;> (try split at h) <;>
      cases h <;> (try split at hk) <;> cases k <;> simp_all [Point.holds, Point.needs]
  | closing closer route =>
    cases route <;> cases closer <;> cases h <;> cases k <;> simp_all [Point.holds, Point.needs]
  | replacing g previous =>
    cases h
    split at hk <;> cases k <;> simp_all [Point.holds, Point.needs]
  | _ =>
    simp only [advance] at h
    repeat' split at h
    all_goals cases h <;> cases k <;> simp_all [Point.holds, Point.needs]

theorem next_acquires {e : Choice} {s s' : Shared} {p p' : Point} {k : Lock}
    (h : next e s p = some (s', p')) (hk : p'.holds k = true) :
    p.holds k = true ∨ p.needs = some k := by
  cases e with
  | call op => cases p <;> cases h; cases hk
  | proceed ok => exact advance_acquires h hk
  | events clients client broadcast => cases p <;> cases h; cases hk

end Shared

/-- The program of the goroutines. -/
def hubThreads : LockedThreads Shared Point Lock Choice where
  holds := Point.holds
  needs := Point.needs
  next := Shared.next
  acquires := Shared.next_acquires

/-- A configuration of the goroutines that call the hub. -/
abbrev Goroutines := LockedThreads.Config Shared Point Lock

/-- A new hub with no call in progress. -/
def Initial (c : Goroutines) : Prop :=
  c = ⟨⟨newHub, []⟩, fun _ ↦ .idle, fun _ ↦ none⟩

/-! ### What a step leaves alone -/

/-- Two hubs agree on what the lifecycle operations decide. -/
structure SameLifecycle (h h' : Hub) : Prop where
  /-- On `screenActive`. -/
  active : h'.screenActive = h.screenActive
  /-- On `screenGeneration`. -/
  generation : h'.screenGeneration = h.screenGeneration
  /-- On `controlRoute`. -/
  controlRoute : h'.controlRoute = h.controlRoute
  /-- On the routes that are allocated. -/
  nextRoute : h'.nextRoute = h.nextRoute
  /-- On the routes that are closed. -/
  closed : ∀ r, (h'.route r).closed = (h.route r).closed
  /-- On the generations of the routes. -/
  routeGeneration : ∀ r, (h'.route r).generation = (h.route r).generation

theorem SameLifecycle.refl (h : Hub) : SameLifecycle h h :=
  ⟨rfl, rfl, rfl, rfl, fun _ ↦ rfl, fun _ ↦ rfl⟩

theorem SameLifecycle.accepts {h h' : Hub} (hs : SameLifecycle h h') (g : ℕ) :
    h'.accepts g = h.accepts g := by
  rw [Hub.accepts, Hub.accepts, hs.active, hs.generation]

theorem sameLifecycle_publishFrame (h : Hub) (data : Bytes) :
    SameLifecycle h (h.publishFrame data) := by
  unfold publishFrame offerFrame cacheFrame
  split <;> exact ⟨rfl, rfl, rfl, rfl, fun _ ↦ rfl, fun _ ↦ rfl⟩

/-- Marking a route or writing on it is no lifecycle change. -/
theorem sameLifecycle_markOffSent (h : Hub) (r : RouteId) : SameLifecycle h (h.markOffSent r) := by
  refine ⟨rfl, rfl, rfl, rfl, fun r' ↦ ?_, fun r' ↦ ?_⟩ <;>
    by_cases hr : r' = r <;> simp [markOffSent, hr]

theorem closeRoute_closed (h : Hub) (r r' : RouteId) :
    ((h.closeRoute r).route r').closed = (decide (r' = r) || (h.route r').closed) := by
  by_cases hr : r' = r
  · subst hr; simp [closeRoute]
  · simp [closeRoute, hr]

theorem closeRoute_generation (h : Hub) (r r' : RouteId) :
    ((h.closeRoute r).route r').generation = (h.route r').generation := by
  by_cases hr : r' = r
  · subst hr; simp [closeRoute]
  · simp [closeRoute, hr]

theorem installRoute_route_of_lt (h : Hub) (g : ℕ) {r : RouteId} (hr : r < h.nextRoute) :
    (h.installRoute g).route r = h.route r := by
  have hne : r ≠ h.nextRoute := Nat.ne_of_lt hr
  simp [installRoute, hne]

variable {e : Choice} {s s' : Shared} {p p' : Point}

/-- **Only the holder of `displayMu` changes the lifecycle.** -/
theorem next_sameLifecycle (h : Shared.next e s p = some (s', p'))
    (hp : p.holds .displayMu = false) : SameLifecycle s.hub s'.hub := by
  cases e with
  | call op => cases p <;> cases h; exact .refl _
  | events clients client broadcast =>
    cases p <;> cases h
    exact ⟨rfl, rfl, rfl, rfl, fun _ ↦ rfl, fun _ ↦ rfl⟩
  | proceed ok =>
    cases p with
    | called op =>
      cases op
      case write =>
        simp only [Shared.next, Shared.advance] at h
        split at h <;> cases h <;> exact .refl _
      all_goals cases h; exact .refl _
    | writing r data =>
      simp only [Shared.next, Shared.advance] at h
      split at h <;> cases h <;> exact .refl _
    | sendingInput r data =>
      cases h
      exact ⟨rfl, rfl, rfl, rfl, fun _ ↦ rfl, fun _ ↦ rfl⟩
    | framing g data =>
      cases h
      exact sameLifecycle_publishFrame _ _
    | idle => cases h
    | _ => simp [Point.holds] at hp

/-- **Only the holder of `controlMu` ends or begins a session.** -/
theorem next_accepts (h : Shared.next e s p = some (s', p'))
    (hp : p.holds .controlMu = false) (hneeds : p.needs ≠ some .controlMu) (g : ℕ) :
    s'.hub.accepts g = s.hub.accepts g := by
  by_cases hd : p.holds .displayMu = false
  · exact (next_sameLifecycle h hd).accepts g
  · cases e with
    | call op => cases p <;> cases h; rfl
    | events clients client broadcast => cases p <;> cases h; rfl
    | proceed ok =>
      cases p with
      | entered op => exact absurd rfl hneeds
      | closing closer route => cases route <;> cases closer <;> cases h <;> rfl
      | restoring closer route =>
        simp only [Shared.next, Shared.advance] at h
        repeat' split at h
        all_goals cases h; rfl
      | turningOn closer r =>
        simp only [Shared.next, Shared.advance] at h
        split at h <;> cases h <;> rfl
      | sendingOn closer r => cases ok <;> cases h <;> rfl
      | _ => simp [Point.holds] at hp hd

/-- A step allocates routes and never frees them. -/
theorem next_nextRoute_le (h : Shared.next e s p = some (s', p')) :
    s.hub.nextRoute ≤ s'.hub.nextRoute := by
  by_cases hd : p.holds .displayMu = false
  · exact Nat.le_of_eq (next_sameLifecycle h hd).nextRoute.symm
  · cases e with
    | call op => cases p <;> cases h; exact Nat.le_refl _
    | events clients client broadcast => cases p <;> cases h; exact Nat.le_refl _
    | proceed ok =>
      cases p with
      | entered op =>
        cases op <;> simp only [Shared.next, Shared.advance, Shared.install, detachRoute] at h
        all_goals (repeat' split at h)
        all_goals cases h
        all_goals first | exact Nat.le_refl _ | exact Nat.le_succ _
      | closing closer route => cases route <;> cases closer <;> cases h <;> exact Nat.le_refl _
      | replacing g previous => cases h; exact Nat.le_succ _
      | idle | called _ | writing _ _ | sendingInput _ _ | framing _ _ => simp [Point.holds] at hd
      | _ =>
        simp only [Shared.next, Shared.advance] at h
        repeat' split at h
        all_goals cases h <;> exact Nat.le_refl _

end AllRelay.Hub
