import AllRelay.Library.LabelledSystem
import AllRelay.Phone.PointersState

/-!
# Injecting touches

`Controller.injectTouch` and `injectScroll`: from a message with a pointer, a position and buttons
to the `MotionEvent`s that are handed to the input manager of the phone.

The clock, the version of Android and what the input manager answers are those of the moment
(`Env`). The matrix that maps a position of the video to the display is a function here: it computes
with floating point.
-/

namespace AllRelay.Phone

open PointersState MultiTouch LabelledSystem

/-- `SOURCE_TOUCHSCREEN` and `SOURCE_MOUSE`. -/
inductive Source where
  | touchscreen
  | mouse
deriving DecidableEq, Repr

/-- An event as `MotionEvent.obtain` makes it. -/
structure MotionEvent where
  downTime : ℤ
  eventTime : ℤ
  action : ℤ
  /-- The first `pointerCount` items of the two arrays. -/
  pointers : List (PointerProperties × PointerCoords)
  /-- Set by `InputManager.setActionButton`. -/
  actionButton : ℤ
  buttons : ℤ
  source : Source
deriving DecidableEq, Repr

/-- `ACTION_DOWN`. -/
def actionDown : ℤ := 0
/-- `ACTION_UP`. -/
def actionUp : ℤ := 1
/-- `ACTION_MOVE`. -/
def actionMove : ℤ := 2
/-- `ACTION_POINTER_DOWN`. -/
def actionPointerDown : ℕ := 5
/-- `ACTION_POINTER_UP`. -/
def actionPointerUp : ℕ := 6
/-- `ACTION_HOVER_MOVE`. -/
def actionHoverMove : ℤ := 7
/-- `ACTION_SCROLL`. -/
def actionScroll : ℤ := 8
/-- `ACTION_BUTTON_PRESS`. -/
def actionButtonPress : ℤ := 11
/-- `ACTION_BUTTON_RELEASE`. -/
def actionButtonRelease : ℤ := 12
/-- `ACTION_POINTER_INDEX_SHIFT`. -/
def actionPointerIndexShift : ℕ := 8
/-- `POINTER_ID_MOUSE`. -/
def pointerIdMouse : ℤ := -1

/-- `PositionMapper`. -/
structure PositionMapper where
  /-- The width and the height of `videoSize`. -/
  videoSize : ℤ × ℤ
  /-- `videoToDeviceMatrix.apply`. -/
  videoToDevice : Option (Point → Point)

/-- `PositionMapper.map`: a position on a video of another size is ignored. -/
def PositionMapper.map (mapper : PositionMapper) (position : Position) : Option Point :=
  if mapper.videoSize ≠ (position.screenWidth, position.screenHeight) then none
  else
    match mapper.videoToDevice with
    | some apply => some (apply ⟨position.x, position.y⟩)
    | none => some ⟨position.x, position.y⟩

/-- `Controller.DisplayData`. -/
structure DisplayData where
  virtualDisplayId : ℤ
  positionMapper : PositionMapper

/-- The arguments of `injectTouch`, as they are in the message. -/
structure TouchMessage where
  action : ℤ
  pointerId : ℤ
  position : Position
  pressure : ℚ
  actionButton : ℤ
  buttons : ℤ
deriving DecidableEq

/-- What the controller finds outside of itself. -/
structure Env where
  /-- `SystemClock.uptimeMillis()`. -/
  now : ℤ
  /-- `Build.VERSION.SDK_INT`. -/
  sdk : ℕ
  /-- `Device.injectEvent` on a display. -/
  injectEvent : MotionEvent → ℤ → Bool
  /-- `InputManager.setActionButton`. -/
  setActionButton : MotionEvent → ℤ → Bool

/-- What `injectTouch` and `injectScroll` use of the `Controller`. -/
structure Controller where
  displayId : ℤ
  displayData : Option DisplayData
  lastTouchDown : ℤ
  /-- `pointersState`. -/
  pointers : List Pointer
  pointerProperties : List PointerProperties
  pointerCoords : List PointerCoords

namespace Controller

/-- The constructor, with `initPointers`. -/
def create (displayId : ℤ) : Controller :=
  ⟨displayId, none, 0, [], List.replicate maxPointers ⟨0, .finger⟩,
    List.replicate maxPointers ⟨0, 0, 0, 0, 0⟩⟩

/-- `getEventPointAndDisplayId`. -/
def getEventPointAndDisplayId (c : Controller) (position : Position) : Option (Point × ℤ) :=
  match c.displayData with
  | some data => (data.positionMapper.map position).map fun point ↦ (point, data.virtualDisplayId)
  | none => some (⟨position.x, position.y⟩, c.displayId)

/-- `((actionButton | buttons) & ~MotionEvent.BUTTON_PRIMARY) != 0`, on 32 bits. -/
def activeSecondaryButtons (actionButton buttons : ℤ) : Bool :=
  (BitVec.ofInt 32 actionButton ||| BitVec.ofInt 32 buttons) &&& ~~~1#32 ≠ 0#32

/-- The message is a real mouse event, or one that a finger cannot make. -/
def fromMouse (m : TouchMessage) : Bool :=
  m.pointerId = pointerIdMouse ∧
    (m.action = actionHoverMove ∨ activeSecondaryButtons m.actionButton m.buttons)

/-- The action of a pointer that is not the only one. -/
def secondaryAction (action : ℤ) (pointerIndex : ℕ) : ℤ :=
  if action = actionUp then (actionPointerUp ||| pointerIndex <<< actionPointerIndexShift : ℕ)
  else if action = actionDown then
    (actionPointerDown ||| pointerIndex <<< actionPointerIndexShift : ℕ)
  else action

/-- Hand an event to the input manager, and log it. -/
def inject (env : Env) (targetDisplayId : ℤ) (event : MotionEvent) :
    StateM (List (MotionEvent × ℤ)) Bool := do
  modify (· ++ [(event, targetDisplayId)])
  return env.injectEvent event targetDisplayId

/-- A button was pressed: `ACTION_DOWN` for the first one, and `ACTION_BUTTON_PRESS`. -/
def injectPress (env : Env) (targetDisplayId : ℤ) (event : MotionEvent) (actionButton : ℤ) :
    StateM (List (MotionEvent × ℤ)) Bool := do
  let first ← (if actionButton = event.buttons then
      inject env targetDisplayId { event with action := actionDown }
    else return true)
  if !first then return false
  let pressEvent := { event with action := actionButtonPress }
  if !env.setActionButton pressEvent actionButton then return false
  inject env targetDisplayId { pressEvent with actionButton }

/-- A button was released: `ACTION_BUTTON_RELEASE`, and `ACTION_UP` for the last one. -/
def injectRelease (env : Env) (targetDisplayId : ℤ) (event : MotionEvent) (actionButton : ℤ) :
    StateM (List (MotionEvent × ℤ)) Bool := do
  let releaseEvent := { event with action := actionButtonRelease }
  if !env.setActionButton releaseEvent actionButton then return false
  let released ← inject env targetDisplayId { releaseEvent with actionButton }
  if !released then return false
  if event.buttons = 0 then inject env targetDisplayId { event with action := actionUp }
  else return true

/-- The events of `injectTouch`, once the pointers and their arrays are updated. -/
def injectMotion (env : Env) (targetDisplayId : ℤ) (event : MotionEvent) (actionButton : ℤ) :
    StateM (List (MotionEvent × ℤ)) Bool :=
  if 23 ≤ env.sdk ∧ event.source = .mouse then
    if event.action = actionDown then injectPress env targetDisplayId event actionButton
    else if event.action = actionUp then injectRelease env targetDisplayId event actionButton
    else inject env targetDisplayId event
  else inject env targetDisplayId event

/-- What is returned, and the events that were injected. -/
def injected (env : Env) (targetDisplayId : ℤ) (event : MotionEvent) (actionButton : ℤ) :
    Bool × List (MotionEvent × ℤ) :=
  (injectMotion env targetDisplayId event actionButton).run []

/-- The message leaves its pointer up. -/
def leavesUp (m : TouchMessage) : Bool :=
  if fromMouse m then m.buttons = 0 else m.action = actionUp

/-- The event of a message, from the index of its pointer, the number of pointers and their
arrays. -/
def touchEvent (m : TouchMessage) (lastTouchDown now : ℤ) (pointerIndex pointerCount : ℕ)
    (props : List PointerProperties) (coords : List PointerCoords) : MotionEvent where
  downTime := lastTouchDown
  eventTime := now
  action := if pointerCount = 1 then m.action else secondaryAction m.action pointerIndex
  pointers := (props.zip coords).take pointerCount
  actionButton := 0
  buttons := if fromMouse m then m.buttons else 0
  source := if fromMouse m then .mouse else .touchscreen

/-- `injectTouch`, from the pointer on. -/
def touchPointer (c : Controller) (env : Env) (m : TouchMessage) (point : Point)
    (targetDisplayId : ℤ) (pointerIndex : ℕ) (pointers : List Pointer) :
    Except Throwable (Bool × Controller × List (MotionEvent × ℤ)) :=
  let pointers := pointers.modify pointerIndex fun p ↦
    { p with point := some point, pressure := m.pressure, up := leavesUp m }
  let props := c.pointerProperties.modify pointerIndex fun q ↦
    { q with toolType := if fromMouse m then .mouse else .finger }
  match update pointers props c.pointerCoords with
  | .error e => .error e
  | .ok (props, coords, left) =>
    let lastTouchDown :=
      if pointers.length = 1 ∧ m.action = actionDown then env.now else c.lastTouchDown
    let event := touchEvent m lastTouchDown env.now pointerIndex pointers.length props coords
    let result := injected env targetDisplayId event m.actionButton
    .ok (result.1, { c with
      lastTouchDown
      pointers := left
      pointerProperties := props
      pointerCoords := coords }, result.2)

/-- `injectTouch`: what it returns, the controller afterwards and the events that were injected. -/
def injectTouch (c : Controller) (env : Env) (m : TouchMessage) :
    Except Throwable (Bool × Controller × List (MotionEvent × ℤ)) :=
  match c.getEventPointAndDisplayId m.position with
  | none => .ok (false, c, [])
  | some (point, targetDisplayId) =>
    match getPointerIndex c.pointers m.pointerId with
    | .error e => .error e
    | .ok (none, _) => .ok (false, c, [])
    | .ok (some pointerIndex, pointers) =>
      c.touchPointer env m point targetDisplayId pointerIndex pointers

/-- `injectScroll`. -/
def injectScroll (c : Controller) (env : Env) (position : Position) (hScroll vScroll : ℚ)
    (buttons : ℤ) : Bool × Controller × List (MotionEvent × ℤ) :=
  match c.getEventPointAndDisplayId position with
  | none => (false, c, [])
  | some (point, targetDisplayId) =>
    let props := c.pointerProperties.modify 0 fun q ↦ { q with id := 0 }
    let coords := c.pointerCoords.modify 0 fun q ↦
      { q with x := point.x, y := point.y, hScroll, vScroll }
    let event : MotionEvent := {
      downTime := c.lastTouchDown
      eventTime := env.now
      action := actionScroll
      pointers := (props.zip coords).take 1
      actionButton := 0
      buttons
      source := .mouse }
    let (ok, events) := (inject env targetDisplayId event).run []
    (ok, { c with pointerProperties := props, pointerCoords := coords }, events)

/-- `onNewVirtualDisplay`. -/
def onNewVirtualDisplay (c : Controller) (data : DisplayData) : Controller :=
  { c with displayData := some data }

/-- What reaches the part of the controller that is modelled here. -/
inductive Input where
  | touch (m : TouchMessage)
  | scroll (position : Position) (hScroll vScroll : ℚ) (buttons : ℤ)
  | newVirtualDisplay (data : DisplayData)

/-- One input: the controller afterwards, and the events that were injected. -/
def handle (c : Controller) (env : Env) : Input →
    Except Throwable (Controller × List (MotionEvent × ℤ))
  | .touch m => do return (← c.injectTouch env m).2
  | .scroll position hScroll vScroll buttons =>
    .ok (c.injectScroll env position hScroll vScroll buttons).2
  | .newVirtualDisplay data => .ok (c.onNewVirtualDisplay data, [])

/-- A sequence of inputs, each with what the controller finds outside of itself then. -/
def run : Controller → List (Env × Input) → Except Throwable (Controller × List (MotionEvent × ℤ))
  | c, [] => .ok (c, [])
  | c, (env, input) :: inputs => do
    let (c, events) ← c.handle env input
    let (c, rest) ← c.run inputs
    return (c, events ++ rest)

/-! ### What is logged -/

/-- Every event that is logged satisfies `P`. -/
def Logs {α : Type} (P : MotionEvent × ℤ → Prop) (x : StateM (List (MotionEvent × ℤ)) α) : Prop :=
  ∀ log, (∀ e ∈ log, P e) → ∀ e ∈ (x.run log).2, P e

section Logs

variable {α β : Type} {P : MotionEvent × ℤ → Prop}

theorem Logs.pure (a : α) : Logs P (pure a) :=
  fun _ h ↦ h

theorem Logs.bind {x : StateM (List (MotionEvent × ℤ)) α}
    {f : α → StateM (List (MotionEvent × ℤ)) β} (hx : Logs P x) (hf : ∀ a, Logs P (f a)) :
    Logs P (x >>= f) :=
  fun log h ↦ hf _ _ (hx log h)

theorem Logs.ite {p : Prop} [Decidable p] {x y : StateM (List (MotionEvent × ℤ)) α}
    (hx : Logs P x) (hy : Logs P y) : Logs P (if p then x else y) := by
  split
  · exact hx
  · exact hy

theorem Logs.inject {env : Env} {display : ℤ} {event : MotionEvent} (h : P (event, display)) :
    Logs P (inject env display event) := by
  intro log hlog e he
  rcases List.mem_append.1 (show e ∈ log ++ [(event, display)] from he) with he | he
  · exact hlog e he
  · exact List.mem_singleton.1 he ▸ h

end Logs

/-- All events of a message go to one display and list the same pointers. -/
theorem injected_pointers (env : Env) (display : ℤ) (event : MotionEvent) (actionButton : ℤ) :
    ∀ e ∈ (injected env display event actionButton).2,
      e.1.pointers = event.pointers ∧ e.2 = display := by
  have hpress : Logs (fun e ↦ e.1.pointers = event.pointers ∧ e.2 = display)
      (injectPress env display event actionButton) := by
    refine Logs.bind ?_ fun first ↦ ?_
    · exact .ite (.inject ⟨rfl, rfl⟩) (.pure _)
    · exact .ite (.pure _) (.ite (.pure _) (.inject ⟨rfl, rfl⟩))
  have hrelease : Logs (fun e ↦ e.1.pointers = event.pointers ∧ e.2 = display)
      (injectRelease env display event actionButton) := by
    refine .ite (.pure _) (.bind ?_ fun released ↦ ?_)
    · exact .inject ⟨rfl, rfl⟩
    · exact .ite (.pure _) (.ite (.inject ⟨rfl, rfl⟩) (.pure _))
  have hmotion : Logs (fun e ↦ e.1.pointers = event.pointers ∧ e.2 = display)
      (injectMotion env display event actionButton) :=
    .ite (.ite hpress (.ite hrelease (.inject ⟨rfl, rfl⟩))) (.inject ⟨rfl, rfl⟩)
  exact hmotion [] fun _ h ↦ absurd h List.not_mem_nil

/-- A finger injects the event as it is. -/
theorem injected_of_touchscreen {env : Env} {display : ℤ} {event : MotionEvent} {actionButton : ℤ}
    (h : event.source = .touchscreen) :
    (injected env display event actionButton).2 = [(event, display)] := by
  have hmouse : ¬(23 ≤ env.sdk ∧ event.source = .mouse) := by
    rw [h]
    exact fun hm ↦ by cases hm.2
  rw [injected, injectMotion, if_neg hmouse]
  rfl

/-! ### What a touch does -/

/-- The controller between two inputs. -/
structure Inv (c : Controller) : Prop where
  pointers : PointersState.Inv c.pointers
  pointerProperties : c.pointerProperties.length = maxPointers
  pointerCoords : c.pointerCoords.length = maxPointers

theorem create_inv (displayId : ℤ) : (create displayId).Inv :=
  ⟨.nil, List.length_replicate, List.length_replicate⟩

variable {c : Controller} {env : Env} {m : TouchMessage} {point : Point} {display : ℤ}
  {index : ℕ} {q : List Pointer}

/-- The pointers that the event of a message lists. -/
def listed (m : TouchMessage) (point : Point) (q : List Pointer) : List Pointer :=
  q.map (Entered.set m.pointerId point m.pressure (leavesUp m))

/-- A touch updates its pointer and injects an event that lists it among the others. -/
theorem touchPointer_eq (hs : c.Inv) (hq : Entered c.pointers m.pointerId index q) (env : Env)
    (point : Point) (display : ℤ) :
    ∃ props coords lastTouchDown,
      props.length = maxPointers ∧ coords.length = maxPointers ∧
      ((props.zip coords).take q.length).map (some ∘ item) = (listed m point q).map shown ∧
      c.touchPointer env m point display index q =
        .ok ((injected env display
            (touchEvent m lastTouchDown env.now index q.length props coords) m.actionButton).1,
          { c with
            lastTouchDown
            pointers := cleanUp (listed m point q)
            pointerProperties := props
            pointerCoords := coords },
          (injected env display
            (touchEvent m lastTouchDown env.now index q.length props coords)
            m.actionButton).2) := by
  have hlength : q.length ≤ maxPointers := length_le_maxPointers hq.localIds hq.localId_lt
  obtain ⟨props, coords, hupdate, hprops, hcoords, hitems⟩ :=
    update_spec
      (c.pointerProperties.modify index fun r ↦
        { r with toolType := if fromMouse m then .mouse else .finger })
      c.pointerCoords (hq.point_ne_none hs.pointers point m.pressure (leavesUp m))
      (by rw [List.length_map, List.length_modify, hs.pointerProperties]; exact hlength)
      (by rw [List.length_map, hs.pointerCoords]; exact hlength)
  rw [List.length_modify, hs.pointerProperties] at hprops
  rw [hs.pointerCoords] at hcoords
  rw [List.length_map] at hitems
  refine ⟨props, coords, if q.length = 1 ∧ m.action = actionDown then env.now else c.lastTouchDown,
    hprops, hcoords, hitems, ?_⟩
  rw [touchPointer, hq.modify_eq]
  dsimp only
  rw [hupdate, List.length_map]
  rfl

/-- An event lists pointers with distinct local ids below the bound, and at least one. -/
def WellListed (event : MotionEvent) : Prop :=
  (event.pointers.map fun i ↦ i.1.id).Nodup ∧ (∀ i ∈ event.pointers, i.1.id < maxPointers) ∧
    event.pointers ≠ []

/-- The local ids that an event lists. -/
theorem ids_of_items {items : List (PointerProperties × PointerCoords)} {pointers : List Pointer}
    (hpoint : ∀ p ∈ pointers, p.point ≠ none)
    (h : items.map (some ∘ item) = pointers.map shown) :
    (items.map fun i ↦ i.1.id) = pointers.map Pointer.localId := by
  have hfst := congrArg (List.map (Option.map Prod.fst)) h
  rw [List.map_map, List.map_map] at hfst
  have hright : pointers.map (Option.map Prod.fst ∘ shown) =
      (pointers.map Pointer.localId).map some := by
    rw [List.map_map]
    refine List.map_congr_left fun p hp ↦ ?_
    obtain ⟨point, hpoint⟩ := Option.ne_none_iff_exists'.1 (hpoint p hp)
    simp [shown, hpoint]
  rw [hright] at hfst
  refine List.map_injective_iff.2 (Option.some_injective ℕ) ?_
  rw [← hfst, List.map_map]
  rfl

theorem wellListed_of_items (hs : c.Inv) (hq : Entered c.pointers m.pointerId index q)
    (point : Point) {event : MotionEvent}
    (h : event.pointers.map (some ∘ item) = (listed m point q).map shown) :
    WellListed event := by
  have hlocal : (listed m point q).map Pointer.localId = q.map Pointer.localId := by
    simp [listed, Function.comp_def]
  have hids :=
    (ids_of_items (hq.point_ne_none hs.pointers point m.pressure (leavesUp m)) h).trans hlocal
  refine ⟨hids ▸ hq.localIds, fun i hi ↦ ?_, fun hnil ↦ ?_⟩
  · have hmem : i.1.id ∈ q.map Pointer.localId := hids ▸ List.mem_map_of_mem hi
    obtain ⟨p, hp, hpid⟩ := List.mem_map.1 hmem
    exact hpid ▸ hq.localId_lt p hp
  · rw [hnil] at hids
    obtain ⟨p, hp, -⟩ := hq.getElem_index
    rw [List.map_eq_nil_iff.1 hids.symm] at hp
    cases hp

/-- What one input does to the pointers, whatever it is. -/
theorem handle_inv (hs : c.Inv) (env : Env) (input : Input) :
    ∃ c' events, c.handle env input = .ok (c', events) ∧ c'.Inv ∧
      ∀ e ∈ events, WellListed e.1 := by
  have hnone : ∀ e ∈ ([] : List (MotionEvent × ℤ)), WellListed e.1 :=
    fun _ h ↦ absurd h List.not_mem_nil
  cases input with
  | touch m =>
    rw [handle, injectTouch]
    cases hposition : c.getEventPointAndDisplayId m.position with
    | none => exact ⟨c, [], rfl, hs, hnone⟩
    | some pd =>
      obtain ⟨point, display⟩ := pd
      dsimp only
      obtain ⟨hget, -, -⟩ | ⟨index, q, hget, hq, -⟩ :=
        getPointerIndex_entered hs.pointers m.pointerId
      · rw [hget]
        exact ⟨c, [], rfl, hs, hnone⟩
      · obtain ⟨props, coords, lastTouchDown, hprops, hcoords, hitems, htouch⟩ :=
          touchPointer_eq hs hq env point display
        rw [hget]
        dsimp only
        rw [htouch]
        refine ⟨_, _, rfl, ⟨hq.inv hs.pointers, hprops, hcoords⟩, fun e he ↦ ?_⟩
        refine wellListed_of_items hs hq point ?_
        rw [(injected_pointers _ _ _ _ e he).1]
        exact hitems
  | scroll position hScroll vScroll buttons =>
    rw [handle, injectScroll]
    cases hposition : c.getEventPointAndDisplayId position with
    | none => exact ⟨c, [], rfl, hs, hnone⟩
    | some pd =>
      refine ⟨_, _, rfl, ⟨hs.pointers, ?_, ?_⟩, fun e he ↦ ?_⟩
      · exact (List.length_modify ..).trans hs.pointerProperties
      · exact (List.length_modify ..).trans hs.pointerCoords
      · rw [show e = _ from List.mem_singleton.1 he]
        obtain ⟨p, props, hp⟩ := List.exists_cons_of_length_pos
          (hs.pointerProperties ▸ (by decide : 0 < maxPointers))
        obtain ⟨q, coords, hq⟩ := List.exists_cons_of_length_pos
          (hs.pointerCoords ▸ (by decide : 0 < maxPointers))
        simp [WellListed, hp, hq, maxPointers]
  | newVirtualDisplay data =>
    exact ⟨_, [], rfl, ⟨hs.pointers, hs.pointerProperties, hs.pointerCoords⟩, hnone⟩

theorem run_cons {c c₁ c₂ : Controller} {env : Env} {input : Input} {inputs : List (Env × Input)}
    {events₁ events₂ : List (MotionEvent × ℤ)} (h₁ : c.handle env input = .ok (c₁, events₁))
    (h₂ : c₁.run inputs = .ok (c₂, events₂)) :
    c.run ((env, input) :: inputs) = .ok (c₂, events₁ ++ events₂) := by
  rw [run, h₁]
  show (c₁.run inputs >>= fun r ↦ pure (r.1, events₁ ++ r.2)) = _
  rw [h₂]
  rfl

/-- **The pointers are safe**: whatever touches, scrolls and changes of the display reach a
controller, and whatever the input manager answers, nothing is thrown. The pointers that are kept
are at most ten, all of them down, under distinct ids and distinct local ids, and each injected
event lists pointers with distinct local ids below ten. -/
theorem pointers_safe (displayId : ℤ) (inputs : List (Env × Input)) :
    ∃ c events, (create displayId).run inputs = .ok (c, events) ∧
      PointersState.Inv c.pointers ∧ c.pointers.length ≤ maxPointers ∧
        ∀ e ∈ events, WellListed e.1 := by
  have hrun : ∀ (inputs : List (Env × Input)) (c : Controller), c.Inv →
      ∃ c' events, c.run inputs = .ok (c', events) ∧ c'.Inv ∧ ∀ e ∈ events, WellListed e.1 := by
    intro inputs
    induction inputs with
    | nil => exact fun c hs ↦ ⟨c, [], rfl, hs, fun _ h ↦ absurd h List.not_mem_nil⟩
    | cons i inputs ih =>
      intro c hs
      obtain ⟨env, input⟩ := i
      obtain ⟨c₁, events₁, hhandle, hs₁, hlisted₁⟩ := handle_inv hs env input
      obtain ⟨c₂, events₂, hrest, hs₂, hlisted₂⟩ := ih c₁ hs₁
      exact ⟨c₂, events₁ ++ events₂, run_cons hhandle hrest, hs₂,
        fun e he ↦ (List.mem_append.1 he).elim (hlisted₁ e) (hlisted₂ e)⟩
  obtain ⟨c, events, hok, hs, hlisted⟩ := hrun inputs _ (create_inv displayId)
  exact ⟨c, events, hok, hs.pointers,
    length_le_maxPointers hs.pointers.localIds hs.pointers.localId_lt, hlisted⟩

/-! ### The stream of the fingers -/

/-- What the system reads in the action of an event: `getActionMasked` and `getActionIndex`. -/
def touchAction (action : ℤ) : Option Action :=
  let index := action.toNat >>> actionPointerIndexShift
  match action.toNat &&& 0xff with
  | 0 => some .down
  | 1 => some .up
  | 2 => some .move
  | 5 => some (.pointerDown index)
  | 6 => some (.pointerUp index)
  | _ => none

/-- An event as part of the stream of the touch screen. -/
def toTouch (e : MotionEvent × ℤ) : Option (Event ℕ) :=
  if e.1.source = .touchscreen then
    (touchAction e.1.action).map fun action ↦ ⟨action, e.1.pointers.map fun i ↦ i.1.id⟩
  else none

/-- The action of a message about a finger. -/
def fingerAction : Contact → ℤ
  | .down => actionDown
  | .move => actionMove
  | .up => actionUp

/-- The message is about a finger that goes down, moves or goes up. -/
def IsFinger (m : TouchMessage) : Prop :=
  fromMouse m = false ∧ ∃ contact, m.action = fingerAction contact

/-- The position is one on the display. -/
def onDisplay (data : Option DisplayData) (position : Position) : Bool :=
  match data with
  | some data => (data.positionMapper.map position).isSome
  | none => true

/-- What a message says of its contact. -/
def contactOf (m : TouchMessage) : Contact :=
  if m.action = actionDown then .down else if m.action = actionUp then .up else .move

/-- The reports of the messages whose positions are on the display of the moment. -/
def reports (data : Option DisplayData) : List (Env × Input) → List (Contact × ℤ)
  | [] => []
  | (_, .touch m) :: inputs =>
    (if onDisplay data m.position then [(contactOf m, m.pointerId)] else []) ++ reports data inputs
  | (_, .scroll ..) :: inputs => reports data inputs
  | (_, .newVirtualDisplay data) :: inputs => reports (some data) inputs

theorem contactOf_eq {contact : Contact} (h : m.action = fingerAction contact) :
    contactOf m = contact := by
  rw [contactOf, h]
  cases contact <;> rfl

theorem onDisplay_iff (c : Controller) (position : Position) :
    onDisplay c.displayData position ↔ c.getEventPointAndDisplayId position ≠ none := by
  unfold onDisplay getEventPointAndDisplayId
  cases c.displayData with
  | none => simp
  | some data => simp [Option.isSome_iff_ne_none]

/-- The masked action and the index are put back together. -/
theorem touchAction_secondary {contact : Contact} {index : ℕ} (h : index < maxPointers) :
    touchAction (secondaryAction (fingerAction contact) index) =
      some (match contact with
        | .down => .pointerDown index
        | .move => .move
        | .up => .pointerUp index) := by
  cases contact with
  | move =>
    have hall : ∀ i < maxPointers, touchAction (secondaryAction (fingerAction .move) i) =
        some .move := by decide
    exact hall index h
  | down =>
    have hall : ∀ i < maxPointers, touchAction (secondaryAction (fingerAction .down) i) =
        some (.pointerDown i) := by decide
    exact hall index h
  | up =>
    have hall : ∀ i < maxPointers, touchAction (secondaryAction (fingerAction .up) i) =
        some (.pointerUp i) := by decide
    exact hall index h

/-- The event of a finger, as part of the stream. -/
theorem toTouch_touchEvent (hs : c.Inv) (hq : Entered c.pointers m.pointerId index q)
    (hfinger : fromMouse m = false) {contact : Contact} (haction : m.action = fingerAction contact)
    {lastTouchDown now : ℤ} {props : List PointerProperties} {coords : List PointerCoords}
    (h : ((props.zip coords).take q.length).map (some ∘ item) = (listed m point q).map shown) :
    toTouch (touchEvent m lastTouchDown now index q.length props coords, display) =
      some (event (entries q) m.pointerId contact) := by
  have hlocal : (listed m point q).map Pointer.localId = q.map Pointer.localId := by
    simp [listed, Function.comp_def]
  have hids :=
    (ids_of_items (hq.point_ne_none hs.pointers point m.pressure (leavesUp m)) h).trans hlocal
  have hlength : q.length ≤ maxPointers := length_le_maxPointers hq.localIds hq.localId_lt
  have hindex : index < maxPointers := by
    obtain ⟨p, hp, -⟩ := hq.getElem_index
    exact Nat.lt_of_lt_of_le (List.getElem?_eq_some_iff.1 hp).1 hlength
  have hdecoded : touchAction (if q.length = 1 then m.action else secondaryAction m.action index) =
      some (event (entries q) m.pointerId contact).action := by
    simp only [event, length_entries, map_fst_entries, ← hq.index_eq]
    split
    · rw [haction]
      cases contact <;> rfl
    · rw [haction, touchAction_secondary hindex]
      cases contact <;> rfl
  rw [toTouch]
  simp only [touchEvent, hfinger, if_true, hids, Bool.false_eq_true, if_false]
  rw [hdecoded]
  simp [event]

/-- The injected events go on exactly as long as the reports are legal, and then the pointers are
the contacts that are down. -/
structure Follows (c : Controller) (rs : List (Contact × ℤ)) (c' : Controller)
    (events : List (MotionEvent × ℤ)) : Prop where
  accept : exec accept (c.pointers.map Pointer.localId) (events.filterMap toTouch) =
    (exec (report maxPointers) (c.pointers.map Pointer.id) rs).map
      fun _ ↦ c'.pointers.map Pointer.localId
  ids : ∀ ids, exec (report maxPointers) (c.pointers.map Pointer.id) rs = some ids →
    ids = c'.pointers.map Pointer.id

/-- Nothing happens to the pointers. -/
theorem Follows.refl {c c' : Controller} {events : List (MotionEvent × ℤ)}
    (hpointers : c'.pointers = c.pointers) (hevents : events.filterMap toTouch = []) :
    Follows c [] c' events := by
  constructor
  · rw [hevents, hpointers]
    rfl
  · intro ids hids
    rw [hpointers]
    exact (Option.some.inj hids).symm

theorem Follows.trans {c₁ c₂ c₃ : Controller} {rs₁ rs₂ : List (Contact × ℤ)}
    {events₁ events₂ : List (MotionEvent × ℤ)} (h₁ : Follows c₁ rs₁ c₂ events₁)
    (h₂ : Follows c₂ rs₂ c₃ events₂) : Follows c₁ (rs₁ ++ rs₂) c₃ (events₁ ++ events₂) := by
  cases hreport : exec (report maxPointers) (c₁.pointers.map Pointer.id) rs₁ with
  | none =>
    have haccept := h₁.accept
    rw [hreport] at haccept
    constructor
    · rw [List.filterMap_append, exec_append, exec_append, haccept, hreport]
      rfl
    · intro ids hids
      rw [exec_append, hreport] at hids
      cases hids
  | some ids₁ =>
    obtain rfl := h₁.ids ids₁ hreport
    have haccept := h₁.accept
    rw [hreport] at haccept
    constructor
    · rw [List.filterMap_append, exec_append, exec_append, haccept, hreport]
      exact h₂.accept
    · intro ids hids
      rw [exec_append, hreport] at hids
      exact h₂.ids ids hids

/-- **One message about a finger.** -/
theorem touch_follows (hs : c.Inv) (env : Env) (hm : IsFinger m)
    (hposition : c.getEventPointAndDisplayId m.position ≠ none) :
    ∃ c' events, c.handle env (.touch m) = .ok (c', events) ∧ c'.Inv ∧
      c'.displayData = c.displayData ∧ Follows c [(contactOf m, m.pointerId)] c' events := by
  obtain ⟨hfinger, contact, haction⟩ := hm
  obtain ⟨⟨point, display⟩, hpoint⟩ := Option.ne_none_iff_exists'.1 hposition
  rw [contactOf_eq haction, handle, injectTouch, hpoint]
  dsimp only
  obtain ⟨hget, hid, hfull⟩ | ⟨index, q, hget, hq, hroom⟩ :=
    getPointerIndex_entered hs.pointers m.pointerId
  · have hreport : report maxPointers ((entries c.pointers).map Prod.fst) (contact, m.pointerId) =
        some ((entries c.pointers).map Prod.fst) :=
      report_of_full (by rwa [map_fst_entries]) (by rwa [length_entries])
    rw [map_fst_entries] at hreport
    have hexec : exec (report maxPointers) (c.pointers.map Pointer.id) [(contact, m.pointerId)] =
        some (c.pointers.map Pointer.id) := exec_cons_eq_some_iff.2 ⟨_, hreport, rfl⟩
    rw [hget]
    refine ⟨c, [], rfl, hs, rfl, ?_, fun ids hids ↦ ?_⟩
    · rw [hexec]
      rfl
    · rw [hexec] at hids
      exact (Option.some.inj hids).symm
  · obtain ⟨props, coords, lastTouchDown, hprops, hcoords, hitems, htouch⟩ :=
      touchPointer_eq hs hq env point display
    obtain ⟨fresh, henter⟩ := hq.entries_eq
    rw [hget]
    dsimp only
    rw [htouch]
    refine ⟨_, _, rfl, ⟨hq.inv hs.pointers, hprops, hcoords⟩, rfl, ?_⟩
    rw [injected_of_touchscreen (by simp [touchEvent, hfinger])]
    have hevents : List.filterMap toTouch [(touchEvent m lastTouchDown env.now index q.length props
        coords, display)] = [event (entries q) m.pointerId contact] :=
      List.filterMap_cons_some (toTouch_touchEvent hs hq hfinger haction hitems)
    have hleft : entries (cleanUp (listed m point q)) =
        leave (enter (entries c.pointers) m.pointerId fresh) m.pointerId contact := by
      rw [listed, hq.entries_cleanUp hs.pointers, henter, leave, leavesUp, hfinger, haction]
      cases contact <;> simp [fingerAction, actionDown, actionMove, actionUp]
    have hroom' : m.pointerId ∈ (entries c.pointers).map Prod.fst ∨
        (entries c.pointers).length < maxPointers := by
      rwa [map_fst_entries, length_entries]
    have hkeys : ((entries c.pointers).map Prod.fst).Nodup := by
      rw [map_fst_entries]
      exact hs.pointers.ids
    by_cases hlegal : contact.Legal (m.pointerId ∈ (entries c.pointers).map Prod.fst)
    · have hreport := report_eq_some fresh hkeys hroom' hlegal
      have haccept := accept_event fresh hkeys
        (by rw [← henter, map_snd_entries]; exact hq.localIds) hlegal
      rw [← hleft, map_fst_entries, map_fst_entries] at hreport
      rw [← hleft, ← henter, map_snd_entries, map_snd_entries] at haccept
      have hexec : exec (report maxPointers) (c.pointers.map Pointer.id) [(contact, m.pointerId)] =
          some ((cleanUp (listed m point q)).map Pointer.id) :=
        exec_cons_eq_some_iff.2 ⟨_, hreport, rfl⟩
      constructor
      · rw [hevents, hexec]
        exact exec_cons_eq_some_iff.2 ⟨_, haccept, rfl⟩
      · intro ids hids
        rw [hexec] at hids
        exact (Option.some.inj hids).symm
    · have hreport := report_eq_none hroom' hlegal
      have haccept := accept_event_eq_none fresh hlegal
      rw [map_fst_entries] at hreport
      rw [← henter, map_snd_entries] at haccept
      constructor
      · rw [hevents, exec_cons, exec_cons, haccept, hreport]
        rfl
      · intro ids hids
        rw [exec_cons, hreport] at hids
        cases hids

/-- Any input that is not a mouse: the reports it makes, and that the controller follows them. -/
theorem handle_follows (hs : c.Inv) (env : Env) (input : Input)
    (hfinger : ∀ m, input = .touch m → IsFinger m) (inputs : List (Env × Input)) :
    ∃ c' events rs, c.handle env input = .ok (c', events) ∧ c'.Inv ∧
      reports c.displayData ((env, input) :: inputs) = rs ++ reports c'.displayData inputs ∧
      Follows c rs c' events := by
  cases input with
  | touch m =>
    by_cases hposition : c.getEventPointAndDisplayId m.position = none
    · have hoff : onDisplay c.displayData m.position = false := by
        rw [← Bool.not_eq_true, onDisplay_iff, not_not]
        exact hposition
      refine ⟨c, [], [], ?_, hs, ?_, .refl rfl rfl⟩
      · rw [handle, injectTouch, hposition]
        rfl
      · rw [reports, hoff]
        rfl
    · have hon := (onDisplay_iff c m.position).2 hposition
      obtain ⟨c', events, hhandle, hs', hdata, hfollows⟩ :=
        touch_follows hs env (hfinger m rfl) hposition
      refine ⟨c', events, _, hhandle, hs', ?_, hfollows⟩
      rw [reports, hon, hdata]
      rfl
  | scroll position hScroll vScroll buttons =>
    obtain ⟨c', events, hhandle, hs', -⟩ :=
      handle_inv hs env (.scroll position hScroll vScroll buttons)
    have hfollows : c'.pointers = c.pointers ∧ c'.displayData = c.displayData ∧
        events.filterMap toTouch = [] := by
      rw [handle, injectScroll] at hhandle
      cases hposition : c.getEventPointAndDisplayId position with
      | none =>
        rw [hposition] at hhandle
        obtain ⟨rfl, rfl⟩ := Prod.mk.inj (Except.ok.inj hhandle)
        exact ⟨rfl, rfl, rfl⟩
      | some pd =>
        rw [hposition] at hhandle
        obtain ⟨rfl, rfl⟩ := Prod.mk.inj (Except.ok.inj hhandle)
        exact ⟨rfl, rfl, rfl⟩
    refine ⟨c', events, [], hhandle, hs', ?_, .refl hfollows.1 hfollows.2.2⟩
    rw [reports, hfollows.2.1]
    rfl
  | newVirtualDisplay data =>
    exact ⟨_, [], [], rfl, ⟨hs.pointers, hs.pointerProperties, hs.pointerCoords⟩, rfl,
      .refl rfl rfl⟩

/-- A run without a mouse. -/
theorem run_follows : ∀ {inputs : List (Env × Input)} {c : Controller}, c.Inv →
    (∀ i ∈ inputs, ∀ m, i.2 = .touch m → IsFinger m) →
    ∃ c' events, c.run inputs = .ok (c', events) ∧
      Follows c (reports c.displayData inputs) c' events := by
  intro inputs
  induction inputs with
  | nil => exact fun {c} _ _ ↦ ⟨c, [], rfl, .refl rfl rfl⟩
  | cons i inputs ih =>
    intro c hs hfinger
    obtain ⟨env, input⟩ := i
    obtain ⟨c₁, events₁, rs, hhandle, hs₁, hreports, hfollows₁⟩ :=
      handle_follows hs env input (hfinger _ List.mem_cons_self) inputs
    obtain ⟨c₂, events₂, hrest, hfollows₂⟩ :=
      ih hs₁ fun i hi ↦ hfinger i (List.mem_cons_of_mem _ hi)
    exact ⟨c₂, _, run_cons hhandle hrest, hreports ▸ hfollows₁.trans hfollows₂⟩

/-- **The stream of the fingers.** Whatever else reaches the controller, and whatever the input
manager answers: the events that are injected for a sequence of messages about fingers make up a
stream that the system accepts, exactly if the client reported each contact legally (of those whose
positions are on the display, and with an eleventh contact ignored). Then the pointers that are kept
are the contacts that are down, and their local ids the pointers on the glass. -/
theorem finger_stream (displayId : ℤ) (inputs : List (Env × Input))
    (hfinger : ∀ i ∈ inputs, ∀ m, i.2 = .touch m → IsFinger m) :
    ∃ c events, (create displayId).run inputs = .ok (c, events) ∧
      ((exec accept [] (events.filterMap toTouch)).isSome ↔
        (exec (report maxPointers) [] (reports none inputs)).isSome) ∧
      ∀ ids, exec (report maxPointers) [] (reports none inputs) = some ids →
        ids = c.pointers.map Pointer.id ∧
          exec accept [] (events.filterMap toTouch) = some (c.pointers.map Pointer.localId) := by
  obtain ⟨c, events, hok, hfollows⟩ := run_follows (create_inv displayId) hfinger
  have haccept : exec accept [] (events.filterMap toTouch) =
      (exec (report maxPointers) [] (reports none inputs)).map
        fun _ ↦ c.pointers.map Pointer.localId := hfollows.accept
  refine ⟨c, events, hok, ?_, fun ids hids ↦ ⟨hfollows.ids ids hids, ?_⟩⟩
  · rw [haccept, Option.isSome_map]
  · rw [haccept, hids]
    rfl

/-- A clock that stands still and an input manager that takes everything. -/
def stillEnv : Env :=
  ⟨0, 35, fun _ _ ↦ true, fun _ _ ↦ true⟩

/-- Two fingers go down, the first one goes up and then the second one. -/
def pinch : List (Env × Input) :=
  [(0, actionDown), (1, actionDown), (0, actionUp), (1, actionUp)].map fun (id, action) ↦
    (stillEnv, .touch ⟨action, id, ⟨5, 6, 100, 200⟩, 1, 0, 0⟩)

theorem finger_stream_pinch :
    ∃ c events, (create 0).run pinch = .ok (c, events) ∧
      (exec accept [] (events.filterMap toTouch)).isSome := by
  obtain ⟨c, events, hok, hiff, -⟩ := finger_stream 0 pinch (by
    intro i hi m hm
    simp only [pinch, List.map_cons, List.map_nil, List.mem_cons, List.not_mem_nil, or_false] at hi
    rcases hi with rfl | rfl | rfl | rfl
    · obtain rfl := Input.touch.inj hm
      exact ⟨by decide, .down, rfl⟩
    · obtain rfl := Input.touch.inj hm
      exact ⟨by decide, .down, rfl⟩
    · obtain rfl := Input.touch.inj hm
      exact ⟨by decide, .up, rfl⟩
    · obtain rfl := Input.touch.inj hm
      exact ⟨by decide, .up, rfl⟩)
  exact ⟨c, events, hok, hiff.2 (by decide)⟩

end Controller

end AllRelay.Phone
