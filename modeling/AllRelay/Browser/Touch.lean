import AllRelay.Control.Encoders
import AllRelay.Library.Bracketed
import AllRelay.Library.LabelledSystem
import Mathlib.Algebra.Order.Floor.Ring
import Mathlib.Data.Rat.Floor
import Mathlib.Tactic.Linarith
import Mathlib.Tactic.Positivity

/-!
# The pointer of the browser

`app.js` forwards the mouse over the screen canvas as touch messages. `screenPointerDown` is raised
by every press of the primary button, and lowered by its release, when the pointer leaves the canvas
and when the viewer is torn down; whether a message goes out is up to `getScreenPointerPosition`,
which rejects a press in the letterbox. So the flag and the stream of messages can part.

The WebSocket is open throughout. Coordinates and sizes of the page are exact rationals.
-/

open LabelledSystem Bracketed

namespace AllRelay.Browser

open Encoders (clamp)

/-- `DOMRect`, and the `screenDrawRect` of `app.js`. -/
structure Rect where
  left : ℚ
  top : ℚ
  width : ℚ
  height : ℚ
deriving DecidableEq

/-- `width` and `height` of the video, in pixels of the phone. -/
structure VideoSize where
  width : ℕ
  height : ℕ
deriving DecidableEq

/-- A `MouseEvent` on the canvas. -/
structure MouseEvent where
  clientX : ℚ
  clientY : ℚ
  button : ℕ
  /-- `screenCanvasEl.getBoundingClientRect()` at the event. -/
  rect : Rect
deriving DecidableEq

/-- The actions of a touch message: `ANDROID_MOTION_ACTION_DOWN` and its like. -/
inductive MotionAction where
  | down
  | up
  | move
deriving DecidableEq

/-- What a touch message does to the gesture. -/
def MotionAction.mark : MotionAction → Mark
  | .down => .opening
  | .move => .middle
  | .up => .closing

/-- The arguments of `buildTouchControlMessage`. -/
structure Touch where
  action : MotionAction
  pointerId : ℤ
  x : ℤ
  y : ℤ
  screenWidth : ℕ
  screenHeight : ℕ
  pressure : ℚ
  actionButton : ℤ
  buttons : ℤ
deriving DecidableEq

/-- `ANDROID_BUTTON_PRIMARY`. -/
def androidButtonPrimary : ℤ := 1

/-- Where the press of the primary button lies that is held: on the picture, or where
`getScreenPointerPosition` rejects it (in the letterbox, or on no picture). -/
inductive Press where
  | none
  | picture
  | letterbox
deriving DecidableEq

/-- What is kept of the pointer and the screen it is on. -/
structure Pointer where
  screenActive : Bool
  screenPointerDown : Bool
  screenVideoSize : VideoSize
  screenDrawRect : Rect
  /-- History: the primary button went down on the canvas, and since then it has not been released,
  the pointer has not left and the viewer has not been torn down. -/
  pressed : Bool
  /-- History: where the button went down on the canvas of the active viewer, until it is released,
  the pointer leaves or the viewer is torn down. -/
  press : Press
  /-- History: the touch messages that were sent. -/
  sent : List Touch
deriving DecidableEq

/-- `Math.round`, which rounds halves up. -/
def mathRound (v : ℚ) : ℤ :=
  ⌊v + 1 / 2⌋

/-- `resizeScreenCanvasForFrame`, for a canvas of `cssWidth` × `cssHeight`: the `screenDrawRect`. -/
def resizeScreenCanvasForFrame (frame : VideoSize) (cssWidth cssHeight : ℚ) : Rect :=
  let scale := min (cssWidth / frame.width) (cssHeight / frame.height)
  let drawWidth := max 1 (frame.width * scale)
  let drawHeight := max 1 (frame.height * scale)
  ⟨(cssWidth - drawWidth) / 2, (cssHeight - drawHeight) / 2, drawWidth, drawHeight⟩

namespace Pointer

/-- The page is loaded. -/
def start : Pointer :=
  ⟨false, false, ⟨0, 0⟩, ⟨0, 0, 0, 0⟩, false, .none, []⟩

/-- One coordinate of `getScreenPointerPosition`: `frame` of `draw` pixels of the page is scaled to
`size` pixels of the phone. -/
def scaleToScreen (frame draw : ℚ) (size : ℕ) : ℤ :=
  let bounded := clamp frame 0 (max (draw - 1) 0)
  let rel := if draw ≤ 1 then 0 else bounded / (draw - 1)
  mathRound (rel * (size - 1))

/-- `getScreenPointerPosition`. -/
def getScreenPointerPosition (s : Pointer) (e : MouseEvent) (clampToFrame : Bool) :
    Option (ℤ × ℤ) :=
  if s.screenVideoSize.width = 0 ∨ s.screenVideoSize.height = 0 then none
  else
    let drawWidth := if s.screenDrawRect.width = 0 then e.rect.width else s.screenDrawRect.width
    let drawHeight := if s.screenDrawRect.height = 0 then e.rect.height else s.screenDrawRect.height
    if e.rect.width = 0 ∨ e.rect.height = 0 ∨ drawWidth = 0 ∨ drawHeight = 0 then none
    else
      let frameX := e.clientX - e.rect.left - s.screenDrawRect.left
      let frameY := e.clientY - e.rect.top - s.screenDrawRect.top
      if ¬clampToFrame ∧ (frameX < 0 ∨ frameY < 0 ∨ drawWidth < frameX ∨ drawHeight < frameY) then
        none
      else
        some (scaleToScreen frameX drawWidth s.screenVideoSize.width,
          scaleToScreen frameY drawHeight s.screenVideoSize.height)

/-- The position that `sendTouch` sends: only a DOWN is not clamped to the frame. -/
def touchPosition (s : Pointer) (action : MotionAction) (e : MouseEvent) : Option (ℤ × ℤ) :=
  s.getScreenPointerPosition e (action ≠ .down)

/-- `sendTouch`. -/
def sendTouch (s : Pointer) (action : MotionAction) (e : MouseEvent) : Pointer :=
  if !s.screenActive then s
  else
    match s.touchPosition action e with
    | none => s
    | some (x, y) =>
      { s with
        sent := s.sent ++ [{
          action
          pointerId := 0
          x
          y
          screenWidth := s.screenVideoSize.width
          screenHeight := s.screenVideoSize.height
          pressure := if action = .up then 0 else 1
          actionButton := androidButtonPrimary
          buttons := if action = .up then 0 else androidButtonPrimary }] }

/-- The `mousedown` listener. -/
def mousedown (s : Pointer) (e : MouseEvent) : Pointer :=
  if !s.screenActive || e.button ≠ 0 then s
  else { s with screenPointerDown := true }.sendTouch .down e

/-- The `mouseup` listener. -/
def mouseup (s : Pointer) (e : MouseEvent) : Pointer :=
  if !s.screenActive || e.button ≠ 0 then s
  else { s.sendTouch .up e with screenPointerDown := false }

/-- The `mouseleave` listener. -/
def mouseleave (s : Pointer) (e : MouseEvent) : Pointer :=
  if !s.screenActive || !s.screenPointerDown then s
  else { s.sendTouch .up e with screenPointerDown := false }

/-- The `mousemove` listener. -/
def mousemove (s : Pointer) (e : MouseEvent) : Pointer :=
  if !s.screenActive || !s.screenPointerDown then s else s.sendTouch .move e

/-- `destroyScreenDecoder`. -/
def destroyScreenDecoder (s : Pointer) : Pointer :=
  { s with
    screenVideoSize := ⟨0, 0⟩, screenDrawRect := ⟨0, 0, 0, 0⟩, screenPointerDown := false }

/-- `showScreenViewer`. -/
def showScreenViewer (s : Pointer) (visible : Bool) : Pointer :=
  let s := { s with screenActive := visible }
  if !s.screenActive then s.destroyScreenDecoder else s

/-- What the page handles. -/
inductive PointerEvent where
  | mousedown (e : MouseEvent)
  | mouseup (e : MouseEvent)
  | mouseleave (e : MouseEvent)
  | mousemove (e : MouseEvent)
  /-- The viewer is activated or torn down. -/
  | showScreenViewer (visible : Bool)
  /-- `handleScreenSession`: the phone announces the size of the video. -/
  | screenSession (size : VideoSize)
  /-- The decoder outputs a frame, while the canvas has the given size. -/
  | frame (size : VideoSize) (cssWidth cssHeight : ℚ)
deriving DecidableEq

/-- Whether the button is held, after an event. -/
def pressedAfter (s : Pointer) : PointerEvent → Bool
  | .mousedown e => s.pressed || e.button = 0
  | .mouseup e => s.pressed && e.button ≠ 0
  | .mouseleave _ => false
  | .showScreenViewer visible => s.pressed && visible
  | _ => s.pressed

/-- Where the press that is held lies, after an event. -/
def pressAfter (s : Pointer) : PointerEvent → Press
  | .mousedown e =>
    if s.screenActive = true ∧ e.button = 0 then
      if s.touchPosition .down e ≠ none then .picture
      else if s.press = .none then .letterbox
      else s.press
    else s.press
  | .mouseup e => if s.screenActive = true ∧ e.button = 0 then .none else s.press
  | .mouseleave _ => .none
  | .showScreenViewer visible => if visible then s.press else .none
  | _ => s.press

/-- The listener of an event. -/
def handle (s : Pointer) : PointerEvent → Pointer
  | .mousedown e => s.mousedown e
  | .mouseup e => s.mouseup e
  | .mouseleave e => s.mouseleave e
  | .mousemove e => s.mousemove e
  | .showScreenViewer visible => s.showScreenViewer visible
  | .screenSession size =>
    if size.width = 0 ∨ size.height = 0 then s else { s with screenVideoSize := size }
  | .frame size cssWidth cssHeight =>
    { s with
      screenVideoSize := size
      screenDrawRect := resizeScreenCanvasForFrame size cssWidth cssHeight }

/-- One event. -/
def step (s : Pointer) (e : PointerEvent) : Option Pointer :=
  some { s.handle e with pressed := s.pressedAfter e, press := s.pressAfter e }

/-! ### Coordinates -/

theorem clamp_mem {v hi : ℚ} (h : 0 ≤ hi) : 0 ≤ clamp v 0 hi ∧ clamp v 0 hi ≤ hi :=
  ⟨le_min h (le_max_left 0 v), min_le_left _ _⟩

/-- A scaled coordinate lies on the screen. -/
theorem scaleToScreen_mem (frame draw : ℚ) {size : ℕ} (hsize : size ≠ 0) :
    0 ≤ scaleToScreen frame draw size ∧ scaleToScreen frame draw size ≤ size - 1 := by
  have hsize : (1 : ℚ) ≤ size := by exact_mod_cast Nat.one_le_iff_ne_zero.2 hsize
  obtain ⟨rel, hrel, h0, h1⟩ : ∃ rel : ℚ, scaleToScreen frame draw size =
      mathRound (rel * (size - 1)) ∧ 0 ≤ rel ∧ rel ≤ 1 := by
    refine ⟨_, rfl, ?_⟩
    split_ifs with hdraw
    · exact ⟨le_refl 0, zero_le_one⟩
    · have hpos : 0 < draw - 1 := by linarith
      obtain ⟨hlo, hhi⟩ := clamp_mem (v := frame) (le_max_right (draw - 1) 0)
      rw [max_eq_left hpos.le] at hlo hhi ⊢
      exact ⟨div_nonneg hlo hpos.le, (div_le_one hpos).2 hhi⟩
  have hlo : 0 ≤ rel * (size - 1) := mul_nonneg h0 (by linarith)
  have hhi : rel * (size - 1) ≤ size - 1 := mul_le_of_le_one_left (by linarith) h1
  rw [hrel]
  unfold mathRound
  constructor
  · exact Int.floor_nonneg.2 (by linarith)
  · refine Int.le_of_lt_add_one (Int.floor_lt.2 ?_)
    push_cast
    linarith

/-- The coordinates of a message lie on the screen whose size it carries. -/
def OnScreen (t : Touch) : Prop :=
  0 ≤ t.x ∧ t.x ≤ t.screenWidth - 1 ∧ 0 ≤ t.y ∧ t.y ≤ t.screenHeight - 1

theorem onScreen_of_position {s : Pointer} {e : MouseEvent} {clampToFrame : Bool} {x y : ℤ}
    (h : s.getScreenPointerPosition e clampToFrame = some (x, y)) :
    0 ≤ x ∧ x ≤ s.screenVideoSize.width - 1 ∧ 0 ≤ y ∧ y ≤ s.screenVideoSize.height - 1 := by
  unfold getScreenPointerPosition at h
  by_cases hvideo : s.screenVideoSize.width = 0 ∨ s.screenVideoSize.height = 0
  · rw [if_pos hvideo] at h
    cases h
  rw [if_neg hvideo] at h
  obtain ⟨hwidth, hheight⟩ := not_or.1 hvideo
  dsimp only at h
  -- Only the size of the video matters, not what is drawn of it.
  generalize (if s.screenDrawRect.width = 0 then _ else _) = drawWidth at h
  generalize (if s.screenDrawRect.height = 0 then _ else _) = drawHeight at h
  split_ifs at h
  obtain ⟨rfl, rfl⟩ := Prod.mk.inj (Option.some.inj h)
  obtain ⟨hx, hx'⟩ := scaleToScreen_mem _ drawWidth hwidth
  obtain ⟨hy, hy'⟩ := scaleToScreen_mem _ drawHeight hheight
  exact ⟨hx, hx', hy, hy'⟩

/-! ### Gestures -/

/-- The gesture on the phone. -/
def gesture (s : Pointer) : Phase :=
  phase (s.sent.map fun t ↦ t.action.mark)

/-- The stream of touch messages is well formed. -/
structure WellFormed (s : Pointer) : Prop where
  /-- It is a prefix of `(DOWN MOVE* UP)*`. -/
  isPrefix : ∃ w ∈ bracketed, (s.sent.map fun t ↦ t.action.mark) <+: w
  /-- No gesture stays open without the button. -/
  closed : s.pressed = false → (s.sent.map fun t ↦ t.action.mark) ∈ bracketed
  onScreen : ∀ t ∈ s.sent, OnScreen t

/-- A gesture is open exactly while a press on the picture is held; the flag is up while any press
is. -/
structure Inv (s : Pointer) : Prop where
  gesture : s.gesture = if s.press = .picture then .opened else .closed
  screenPointerDown : s.screenPointerDown = true ↔ s.press ≠ .none
  screenActive : s.press ≠ .none → s.screenActive = true
  pressed : s.press ≠ .none → s.pressed = true
  onScreen : ∀ t ∈ s.sent, OnScreen t

theorem wellFormed_iff {s : Pointer} :
    s.WellFormed ↔ s.gesture ≠ .broken ∧ (s.pressed = false → s.gesture = .closed) ∧
      ∀ t ∈ s.sent, OnScreen t := by
  constructor
  · intro h
    exact ⟨exists_mem_bracketed_iff.1 h.isPrefix, fun hp ↦ mem_bracketed_iff.1 (h.closed hp),
      h.onScreen⟩
  · rintro ⟨hbroken, hclosed, hscreen⟩
    exact ⟨exists_mem_bracketed_iff.2 hbroken, fun hp ↦ mem_bracketed_iff.2 (hclosed hp), hscreen⟩

theorem Inv.wellFormed {s : Pointer} (hs : s.Inv) : s.WellFormed := by
  refine wellFormed_iff.2 ⟨?_, fun hp ↦ ?_, hs.onScreen⟩
  · rw [hs.gesture]
    split <;> exact fun h ↦ by cases h
  · have hpress : s.press = .none := by
      by_contra hpress
      exact absurd (hs.pressed hpress) (by rw [hp]; decide)
    rw [hs.gesture, hpress]
    rfl

/-- The condition on an event. -/
def Fits (s : Pointer) : PointerEvent → Prop
  -- There is no second press on the picture while one is held.
  | .mousedown e =>
    s.screenActive = true → e.button = 0 → s.touchPosition .down e ≠ none → s.press ≠ .picture
  -- A press in the letterbox is not dragged where the pointer has a position.
  | .mousemove e => s.press = .letterbox → s.touchPosition .move e = none
  -- The pointer has a position, when it leaves, if the press that is held lies on the picture.
  | .mouseleave e => s.press ≠ .none → (s.touchPosition .up e ≠ none ↔ s.press = .picture)
  -- So it has when the button is released.
  | .mouseup e =>
    s.screenActive = true → e.button = 0 → (s.touchPosition .up e ≠ none ↔ s.press = .picture)
  -- The viewer is not torn down between a press on the picture and its release.
  | .showScreenViewer visible => visible = false → s.press ≠ .picture
  | .screenSession _ => True
  | .frame _ _ _ => True

/-! ### One message -/

@[simp]
theorem sendTouch_screenActive (s : Pointer) (action : MotionAction) (e : MouseEvent) :
    (s.sendTouch action e).screenActive = s.screenActive := by
  unfold sendTouch
  split
  · rfl
  · split <;> rfl

@[simp]
theorem sendTouch_screenPointerDown (s : Pointer) (action : MotionAction) (e : MouseEvent) :
    (s.sendTouch action e).screenPointerDown = s.screenPointerDown := by
  unfold sendTouch
  split
  · rfl
  · split <;> rfl

/-- A rejected point sends nothing. -/
theorem sendTouch_of_rejected {s : Pointer} {action : MotionAction} {e : MouseEvent}
    (h : s.touchPosition action e = none) : s.sendTouch action e = s := by
  unfold sendTouch
  rw [h]
  split <;> rfl

/-- Any other point advances the gesture. -/
theorem sendTouch_gesture {s : Pointer} {action : MotionAction} {e : MouseEvent}
    (hactive : s.screenActive = true) (h : s.touchPosition action e ≠ none) :
    (s.sendTouch action e).gesture = advance s.gesture action.mark := by
  obtain ⟨⟨x, y⟩, hxy⟩ := Option.ne_none_iff_exists'.1 h
  unfold sendTouch gesture
  rw [hactive, hxy]
  show phase ((s.sent ++ [_]).map fun t : Touch ↦ t.action.mark) = _
  rw [List.map_append, List.map_singleton, phase_concat]

/-- Every message carries a point of the screen. -/
theorem sendTouch_onScreen {s : Pointer} (hs : ∀ t ∈ s.sent, OnScreen t) (action : MotionAction)
    (e : MouseEvent) : ∀ t ∈ (s.sendTouch action e).sent, OnScreen t := by
  unfold sendTouch
  split
  · exact hs
  · rcases hpos : s.touchPosition action e with _ | ⟨x, y⟩
    · exact hs
    · intro t ht
      rcases List.mem_append.1 ht with ht | ht
      · exact hs t ht
      · rw [List.mem_singleton.1 ht]
        exact onScreen_of_position hpos

/-! ### One event -/

theorem mousedown_eq (s : Pointer) (e : MouseEvent) :
    s.mousedown e =
      if s.screenActive = true ∧ e.button = 0 then
        { s with screenPointerDown := true }.sendTouch .down e
      else s := by
  unfold mousedown
  grind

theorem mouseup_eq (s : Pointer) (e : MouseEvent) :
    s.mouseup e =
      if s.screenActive = true ∧ e.button = 0 then
        { s.sendTouch .up e with screenPointerDown := false }
      else s := by
  unfold mouseup
  grind

theorem mouseleave_eq (s : Pointer) (e : MouseEvent) :
    s.mouseleave e =
      if s.screenActive = true ∧ s.screenPointerDown = true then
        { s.sendTouch .up e with screenPointerDown := false }
      else s := by
  unfold mouseleave
  grind

theorem mousemove_eq (s : Pointer) (e : MouseEvent) :
    s.mousemove e =
      if s.screenActive = true ∧ s.screenPointerDown = true then s.sendTouch .move e else s := by
  unfold mousemove
  grind

theorem handle_onScreen {s : Pointer} (hs : ∀ t ∈ s.sent, OnScreen t) (e : PointerEvent) :
    ∀ t ∈ (s.handle e).sent, OnScreen t := by
  rcases e with e | e | e | e | visible | size | ⟨size, cssWidth, cssHeight⟩
  case mousedown =>
    show ∀ t ∈ (s.mousedown e).sent, OnScreen t
    rw [mousedown_eq]
    split
    · exact sendTouch_onScreen (s := { s with screenPointerDown := true }) hs .down e
    · exact hs
  case mouseup =>
    show ∀ t ∈ (s.mouseup e).sent, OnScreen t
    rw [mouseup_eq]
    split
    · exact sendTouch_onScreen hs .up e
    · exact hs
  case mouseleave =>
    show ∀ t ∈ (s.mouseleave e).sent, OnScreen t
    rw [mouseleave_eq]
    split
    · exact sendTouch_onScreen hs .up e
    · exact hs
  case mousemove =>
    show ∀ t ∈ (s.mousemove e).sent, OnScreen t
    rw [mousemove_eq]
    split
    · exact sendTouch_onScreen hs .move e
    · exact hs
  case showScreenViewer =>
    show ∀ t ∈ (s.showScreenViewer visible).sent, OnScreen t
    rcases visible with _ | _ <;> exact hs
  case screenSession =>
    unfold handle
    dsimp only
    split <;> exact hs
  case frame => exact hs

/-- The gesture after an event, with what it depends on. -/
def gestureAfter (s : Pointer) : PointerEvent → Phase
  | .mousedown e =>
    if s.screenActive = true ∧ e.button = 0 ∧ s.touchPosition .down e ≠ none then
      advance s.gesture .opening
    else s.gesture
  | .mouseup e =>
    if s.screenActive = true ∧ e.button = 0 ∧ s.touchPosition .up e ≠ none then
      advance s.gesture .closing
    else s.gesture
  | .mouseleave e =>
    if s.screenActive = true ∧ s.screenPointerDown = true ∧ s.touchPosition .up e ≠ none then
      advance s.gesture .closing
    else s.gesture
  | .mousemove e =>
    if s.screenActive = true ∧ s.screenPointerDown = true ∧ s.touchPosition .move e ≠ none then
      advance s.gesture .middle
    else s.gesture
  | _ => s.gesture

/-- A listener that sends a message under a condition. -/
theorem gesture_of_sendTouch {s t : Pointer} {action : MotionAction} {e : MouseEvent} {c : Prop}
    [Decidable c] (hskip : ¬(s.screenActive = true ∧ c) → t.gesture = s.gesture)
    (hsend : s.screenActive = true ∧ c → t.gesture = (s.sendTouch action e).gesture) :
    t.gesture = if s.screenActive = true ∧ c ∧ s.touchPosition action e ≠ none then
      advance s.gesture action.mark else s.gesture := by
  by_cases h : s.screenActive = true ∧ c
  · rw [hsend h]
    by_cases hpos : s.touchPosition action e = none
    · rw [sendTouch_of_rejected hpos, if_neg fun hall ↦ hall.2.2 hpos]
    · rw [sendTouch_gesture h.1 hpos, if_pos ⟨h.1, h.2, hpos⟩]
  · rw [hskip h, if_neg fun hall ↦ h ⟨hall.1, hall.2.1⟩]

theorem handle_gesture (s : Pointer) (e : PointerEvent) :
    (s.handle e).gesture = s.gestureAfter e := by
  rcases e with e | e | e | e | visible | size | ⟨size, cssWidth, cssHeight⟩
  case mousedown =>
    refine gesture_of_sendTouch (s := { s with screenPointerDown := true }) (fun h ↦ ?_) fun h ↦ ?_
    · show (s.mousedown e).gesture = s.gesture
      rw [mousedown_eq, if_neg h]
    · show (s.mousedown e).gesture = _
      rw [mousedown_eq, if_pos h]
  case mouseup =>
    refine gesture_of_sendTouch (fun h ↦ ?_) fun h ↦ ?_
    · show (s.mouseup e).gesture = s.gesture
      rw [mouseup_eq, if_neg h]
    · show (s.mouseup e).gesture = (s.sendTouch .up e).gesture
      rw [mouseup_eq, if_pos h]
      rfl
  case mouseleave =>
    refine gesture_of_sendTouch (fun h ↦ ?_) fun h ↦ ?_
    · show (s.mouseleave e).gesture = s.gesture
      rw [mouseleave_eq, if_neg h]
    · show (s.mouseleave e).gesture = (s.sendTouch .up e).gesture
      rw [mouseleave_eq, if_pos h]
      rfl
  case mousemove =>
    refine gesture_of_sendTouch (fun h ↦ ?_) fun h ↦ ?_
    · show (s.mousemove e).gesture = s.gesture
      rw [mousemove_eq, if_neg h]
    · show (s.mousemove e).gesture = (s.sendTouch .move e).gesture
      rw [mousemove_eq, if_pos h]
  case showScreenViewer => rcases visible with _ | _ <;> rfl
  case screenSession =>
    unfold handle
    dsimp only
    split <;> rfl
  case frame => rfl

theorem handle_screenActive (s : Pointer) (e : PointerEvent) :
    (s.handle e).screenActive =
      match e with
      | .showScreenViewer visible => visible
      | _ => s.screenActive := by
  rcases e with e | e | e | e | visible | size | ⟨size, cssWidth, cssHeight⟩
  case mousedown =>
    show (s.mousedown e).screenActive = s.screenActive
    rw [mousedown_eq]
    split
    · exact sendTouch_screenActive _ _ _
    · rfl
  case mouseup =>
    show (s.mouseup e).screenActive = s.screenActive
    rw [mouseup_eq]
    split
    · exact sendTouch_screenActive _ _ _
    · rfl
  case mouseleave =>
    show (s.mouseleave e).screenActive = s.screenActive
    rw [mouseleave_eq]
    split
    · exact sendTouch_screenActive _ _ _
    · rfl
  case mousemove =>
    show (s.mousemove e).screenActive = s.screenActive
    rw [mousemove_eq]
    split
    · exact sendTouch_screenActive _ _ _
    · rfl
  case showScreenViewer => rcases visible with _ | _ <;> rfl
  case screenSession =>
    unfold handle
    dsimp only
    split <;> rfl
  case frame => rfl

/-- The flag after an event. -/
theorem handle_screenPointerDown (s : Pointer) (e : PointerEvent) :
    (s.handle e).screenPointerDown =
      match e with
      | .mousedown e => if s.screenActive = true ∧ e.button = 0 then true else s.screenPointerDown
      | .mouseup e => if s.screenActive = true ∧ e.button = 0 then false else s.screenPointerDown
      | .mouseleave _ =>
        if s.screenActive = true ∧ s.screenPointerDown = true then false else s.screenPointerDown
      | .showScreenViewer visible => visible && s.screenPointerDown
      | _ => s.screenPointerDown := by
  rcases e with e | e | e | e | visible | size | ⟨size, cssWidth, cssHeight⟩
  case mousedown =>
    show (s.mousedown e).screenPointerDown =
      if s.screenActive = true ∧ e.button = 0 then true else s.screenPointerDown
    rw [mousedown_eq]
    split_ifs
    · exact sendTouch_screenPointerDown _ _ _
    · rfl
  case mouseup =>
    show (s.mouseup e).screenPointerDown =
      if s.screenActive = true ∧ e.button = 0 then false else s.screenPointerDown
    rw [mouseup_eq]
    split_ifs <;> rfl
  case mouseleave =>
    show (s.mouseleave e).screenPointerDown =
      if s.screenActive = true ∧ s.screenPointerDown = true then false else s.screenPointerDown
    rw [mouseleave_eq]
    split_ifs <;> rfl
  case mousemove =>
    show (s.mousemove e).screenPointerDown = s.screenPointerDown
    rw [mousemove_eq]
    split
    · exact sendTouch_screenPointerDown _ _ _
    · rfl
  case showScreenViewer => rcases visible with _ | _ <;> rfl
  case screenSession =>
    unfold handle
    dsimp only
    split <;> rfl
  case frame => rfl

/-! ### Runs -/

theorem start_inv : start.Inv where
  gesture := rfl
  screenPointerDown := by decide
  screenActive h := absurd rfl h
  pressed h := absurd rfl h
  onScreen t ht := absurd ht List.not_mem_nil

/-- The gesture after an event that meets the condition. -/
theorem Inv.gestureAfter {s : Pointer} {e : PointerEvent} (hs : s.Inv) (hC : s.Fits e) :
    s.gestureAfter e = if s.pressAfter e = .picture then .opened else .closed := by
  obtain ⟨hgesture, hdown, hactive, -, -⟩ := hs
  rcases e with e | e | e | e | visible | size | ⟨size, cssWidth, cssHeight⟩
  case mousedown =>
    simp only [Pointer.gestureAfter, pressAfter, Fits] at hC ⊢
    grind [advance]
  case mouseup =>
    simp only [Pointer.gestureAfter, pressAfter, Fits] at hC ⊢
    grind [advance]
  case mouseleave =>
    simp only [Pointer.gestureAfter, pressAfter, Fits] at hC ⊢
    grind [advance]
  case mousemove =>
    simp only [Pointer.gestureAfter, pressAfter, Fits] at hC ⊢
    -- The flag is up for a press on the picture and for one in the letterbox.
    have hpress : s.press = .picture ∨ s.press = .letterbox ∨ s.press = .none := by
      cases s.press <;> simp
    grind [advance]
  case showScreenViewer =>
    simp only [Pointer.gestureAfter, pressAfter, Fits] at hC ⊢
    grind
  case screenSession => exact hgesture
  case frame => exact hgesture

/-- What goes with the press that is held, after any event. -/
theorem Inv.pressAfter {s : Pointer} (hs : s.Inv) (e : PointerEvent) :
    ((s.handle e).screenPointerDown = true ↔ s.pressAfter e ≠ .none) ∧
      (s.pressAfter e ≠ .none → (s.handle e).screenActive = true ∧ s.pressedAfter e = true) := by
  obtain ⟨-, hdown, hactive, hpressed, -⟩ := hs
  rw [handle_screenPointerDown, handle_screenActive]
  rcases e with e | e | e | e | visible | size | ⟨size, cssWidth, cssHeight⟩
  case mousedown =>
    simp only [Pointer.pressAfter, pressedAfter]
    grind
  case mouseup =>
    simp only [Pointer.pressAfter, pressedAfter]
    grind
  case mouseleave =>
    simp only [Pointer.pressAfter, pressedAfter]
    grind
  case mousemove => exact ⟨hdown, fun h ↦ ⟨hactive h, hpressed h⟩⟩
  case showScreenViewer =>
    simp only [Pointer.pressAfter, pressedAfter]
    grind
  case screenSession => exact ⟨hdown, fun h ↦ ⟨hactive h, hpressed h⟩⟩
  case frame => exact ⟨hdown, fun h ↦ ⟨hactive h, hpressed h⟩⟩

/-- An event that meets the condition keeps the invariant. -/
theorem Inv.step {s t : Pointer} {e : PointerEvent} (hC : s.Fits e) (hs : s.Inv)
    (h : s.step e = some t) : t.Inv := by
  obtain rfl := Option.some.inj h
  obtain ⟨hdown, hpress⟩ := hs.pressAfter e
  exact ⟨(handle_gesture s e).trans (hs.gestureAfter hC), hdown, fun h ↦ (hpress h).1,
    fun h ↦ (hpress h).2, handle_onScreen hs.onScreen e⟩

/-- An event that violates it breaks the stream, or leaves a gesture open. -/
theorem Inv.gestureAfter_of_not_fits {s : Pointer} {e : PointerEvent} (hs : s.Inv)
    (hC : ¬s.Fits e) :
    s.gestureAfter e = .broken ∨ s.pressedAfter e = false ∧ s.gestureAfter e = .opened := by
  obtain ⟨hgesture, hdown, hactive, -, -⟩ := hs
  rcases e with e | e | e | e | visible | size | ⟨size, cssWidth, cssHeight⟩
  case mousedown =>
    simp only [Pointer.gestureAfter, Fits] at hC ⊢
    grind [advance]
  case mouseup =>
    simp only [Pointer.gestureAfter, pressedAfter, Fits] at hC ⊢
    grind [advance]
  case mouseleave =>
    simp only [Pointer.gestureAfter, pressedAfter, Fits] at hC ⊢
    grind [advance]
  case mousemove =>
    simp only [Pointer.gestureAfter, Fits] at hC ⊢
    grind [advance]
  case showScreenViewer =>
    simp only [Pointer.gestureAfter, pressedAfter, Fits] at hC ⊢
    grind
  case screenSession => exact absurd trivial hC
  case frame => exact absurd trivial hC

theorem Inv.not_wellFormed {s : Pointer} {e : PointerEvent} (hs : s.Inv) (hC : ¬s.Fits e) :
    ∃ t, s.step e = some t ∧ ¬t.WellFormed := by
  refine ⟨_, rfl, fun ht ↦ ?_⟩
  obtain ⟨hbroken, hclosed, -⟩ := wellFormed_iff.1 ht
  change (s.handle e).gesture ≠ .broken at hbroken
  change s.pressedAfter e = false → (s.handle e).gesture = .closed at hclosed
  rw [handle_gesture] at hbroken hclosed
  rcases hs.gestureAfter_of_not_fits hC with hg | ⟨hpressed, hg⟩
  · exact hbroken hg
  · rw [hclosed hpressed] at hg
    cases hg

/-- **The touch stream.** Over any sequence of mouse events, activations and teardowns of the viewer
and changes of the screen, the touch messages form a prefix of `(DOWN MOVE* UP)*` with no gesture
open while the button is not held, and with every point on its screen, exactly when every event
meets the condition. -/
theorem touch_stream (es : List PointerEvent) :
    (∀ ms t, ms <+: es → exec step start ms = some t → t.WellFormed) ↔
      Along step Fits start es :=
  throughout_iff_along (fun _ h ↦ h.wellFormed) (fun _ _ _ hC hs h ↦ hs.step hC h)
    (fun _ _ hs hC ↦ hs.not_wellFormed hC) start_inv

/-- Whatever happens, every point that is sent lies on its screen. -/
theorem onScreen_of_exec {es : List PointerEvent} {t : Pointer} (h : exec step start es = some t) :
    ∀ m ∈ t.sent, OnScreen m := by
  refine exec_invariant (P := fun s ↦ ∀ m ∈ s.sent, OnScreen m) ?_ start_inv.onScreen h
  intro s e t hs ht
  obtain rfl := Option.some.inj ht
  exact handle_onScreen hs e

/-- A canvas of 100 × 200 pixels. -/
def mouseAt (clientX clientY : ℚ) : MouseEvent :=
  ⟨clientX, clientY, 0, ⟨0, 0, 100, 200⟩⟩

/-- A click into the letterbox of a square video. -/
def letterboxClick : List PointerEvent :=
  [.showScreenViewer true, .frame ⟨100, 100⟩ 100 200, .mousedown (mouseAt 50 10),
    .mouseup (mouseAt 50 10)]

/-- The press is rejected and the release is not: an UP without a DOWN. -/
theorem letterboxClick_breaks :
    ∃ t, exec step start letterboxClick = some t ∧ ¬t.WellFormed := by
  have hrun : (exec step start letterboxClick).map gesture = some .broken := by
    decide +kernel
  obtain ⟨t, ht, hg⟩ := Option.map_eq_some_iff.1 hrun
  exact ⟨t, ht, fun h ↦ (wellFormed_iff.1 h).1 hg⟩

end Pointer

end AllRelay.Browser
