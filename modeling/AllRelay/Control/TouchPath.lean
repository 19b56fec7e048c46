import AllRelay.Browser.Touch
import AllRelay.Control.RoundTrip
import AllRelay.Phone.TouchInjection

/-!
# From the mouse to the phone

The whole way of a touch: the page turns mouse events into touch messages, encodes them and sends
them over the control socket, the phone reads them back and injects a `MotionEvent` for each. The
control connection over Wi-Fi has no display of its own, so the coordinates are injected as they
are.
-/

open LabelledSystem Bracketed

namespace AllRelay.TouchPath

open Browser (Touch MotionAction)
open Phone (Env MotionEvent TouchMessage)
open Phone.Controller (Input)
open MultiTouch (Contact)
open Encoders (ControlInput)

/-- `ANDROID_MOTION_ACTION_DOWN` and its like. -/
def androidMotionAction : MotionAction → ℤ
  | .down => 0
  | .up => 1
  | .move => 2

/-- The call of `buildTouchControlMessage` in `sendTouch`. -/
def controlInput (t : Touch) : ControlInput :=
  .touch (androidMotionAction t.action) t.pointerId t.x t.y t.screenWidth t.screenHeight t.pressure
    t.actionButton t.buttons

/-- What `handleEvent` passes on to `injectTouch` and `injectScroll`. -/
def inputOf : ControlMessage → Option Input
  | .injectTouchEvent action pointerId position pressure actionButton buttons =>
    some (.touch ⟨action, pointerId, position, pressure, actionButton, buttons⟩)
  | .injectScrollEvent position hScroll vScroll buttons =>
    some (.scroll position hScroll vScroll buttons)
  | _ => none

/-- The message that the phone makes of a touch. -/
def touchMessage (t : Touch) : TouchMessage where
  action := androidMotionAction t.action
  pointerId := t.pointerId
  position := ⟨t.x, t.y, t.screenWidth, t.screenHeight⟩
  pressure := t.pressure
  actionButton := t.actionButton
  buttons := t.buttons

/-! ### What the page sends -/

/-- A touch as `sendTouch` fills it in. -/
structure Plain (t : Touch) : Prop where
  pointerId : t.pointerId = 0
  pressure : t.pressure = 0 ∨ t.pressure = 1
  actionButton : t.actionButton = 1
  buttons : t.buttons = 0 ∨ t.buttons = 1

theorem plain_of_sendTouch {s : Browser.Pointer} (hs : ∀ t ∈ s.sent, Plain t)
    (action : MotionAction) (e : Browser.MouseEvent) :
    ∀ t ∈ (s.sendTouch action e).sent, Plain t := by
  rw [Browser.Pointer.sendTouch]
  split
  · exact hs
  · split
    · exact hs
    · intro t ht
      rcases List.mem_append.1 ht with ht | ht
      · exact hs t ht
      · rw [List.mem_singleton.1 ht]
        exact ⟨rfl, by cases action <;> simp, rfl,
          by cases action <;> simp [Browser.androidButtonPrimary]⟩

/-- A listener sends a touch or none. -/
theorem plain_of_handle {s : Browser.Pointer} (hs : ∀ t ∈ s.sent, Plain t)
    (e : Browser.Pointer.PointerEvent) : ∀ t ∈ (s.handle e).sent, Plain t := by
  rcases e with e | e | e | e | visible | size | ⟨size, cssWidth, cssHeight⟩
  case mousedown =>
    show ∀ t ∈ (s.mousedown e).sent, Plain t
    rw [Browser.Pointer.mousedown]
    split
    · exact hs
    · have hs' : ∀ t ∈ ({ s with screenPointerDown := true } : Browser.Pointer).sent, Plain t := hs
      exact plain_of_sendTouch hs' .down e
  case mouseup =>
    show ∀ t ∈ (s.mouseup e).sent, Plain t
    rw [Browser.Pointer.mouseup]
    split
    · exact hs
    · exact plain_of_sendTouch hs .up e
  case mouseleave =>
    show ∀ t ∈ (s.mouseleave e).sent, Plain t
    rw [Browser.Pointer.mouseleave]
    split
    · exact hs
    · exact plain_of_sendTouch hs .up e
  case mousemove =>
    show ∀ t ∈ (s.mousemove e).sent, Plain t
    rw [Browser.Pointer.mousemove]
    split
    · exact hs
    · exact plain_of_sendTouch hs .move e
  case showScreenViewer =>
    show ∀ t ∈ (s.showScreenViewer visible).sent, Plain t
    rcases visible with _ | _ <;> exact hs
  case screenSession =>
    unfold Browser.Pointer.handle
    dsimp only
    split <;> exact hs
  case frame => exact hs

/-- All touches of a page are plain. -/
theorem plain_of_exec {es : List Browser.Pointer.PointerEvent} {s : Browser.Pointer}
    (h : exec Browser.Pointer.step Browser.Pointer.start es = some s) : ∀ t ∈ s.sent, Plain t := by
  refine exec_invariant (P := fun s ↦ ∀ t ∈ s.sent, Plain t) ?_ (fun t ht ↦ ?_) h
  · intro s e s' hs hstep
    obtain rfl := Option.some.inj hstep
    exact plain_of_handle hs e
  · cases ht

/-- The fields of such a touch fit into its message. -/
theorem inRange_of_plain {t : Touch} (h : Plain t) (hscreen : Browser.Pointer.OnScreen t)
    (hwidth : t.screenWidth < 65536) (hheight : t.screenHeight < 65536) :
    (controlInput t).InRange ∧ (controlInput t).ActionIsByte := by
  obtain ⟨hx, hx', hy, hy'⟩ := hscreen
  refine ⟨⟨?_, ?_, ?_, ?_, ⟨Int.natCast_nonneg _, by omega⟩, ⟨Int.natCast_nonneg _, by omega⟩,
    h.pressure, ?_, ?_⟩, ?_⟩
  · cases t.action <;> norm_num [androidMotionAction, Encoders.IsInt32]
  · norm_num [h.pointerId, Encoders.IsInt64]
  · constructor <;> omega
  · constructor <;> omega
  · norm_num [h.actionButton, Encoders.IsInt32]
  · rcases h.buttons with hb | hb <;> norm_num [hb, Encoders.IsInt32]
  · show 0 ≤ androidMotionAction t.action ∧ androidMotionAction t.action < 256
    cases t.action <;> decide

/-! ### What the phone reads -/

theorem decodes_controlInput {t : Touch} {m : ControlMessage}
    (h : Encoders.Decodes (controlInput t) m) : inputOf m = some (.touch (touchMessage t)) := by
  obtain rfl : m = .injectTouchEvent (androidMotionAction t.action) t.pointerId
      ⟨t.x, t.y, t.screenWidth, t.screenHeight⟩ t.pressure t.actionButton t.buttons := h
  rfl

/-- The phone reads the touches back, one message for each. -/
theorem read_touches {ts : List Touch} (hplain : ∀ t ∈ ts, Plain t)
    (hscreen : ∀ t ∈ ts, Browser.Pointer.OnScreen t)
    (hsize : ∀ t ∈ ts, t.screenWidth < 65536 ∧ t.screenHeight < 65536) :
    ∃ messages, ControlMessageReader.read.many ts.length
        (ts.flatMap fun t ↦ Encoders.encode (controlInput t)) = .ok (messages, []) ∧
      messages.map inputOf = ts.map fun t ↦ some (.touch (touchMessage t)) := by
  have hmessages : ∃ messages,
      List.Forall₂ (Wire.Parses ControlMessageReader.read)
        (ts.map fun t ↦ Encoders.encode (controlInput t)) messages ∧
      messages.map inputOf = ts.map fun t ↦ some (.touch (touchMessage t)) := by
    induction ts with
    | nil => exact ⟨[], .nil, rfl⟩
    | cons t ts ih =>
      have hmem := List.mem_cons_self (a := t) (l := ts)
      obtain ⟨hrange, hbyte⟩ := inRange_of_plain (hplain t hmem) (hscreen t hmem) (hsize t hmem).1
        (hsize t hmem).2
      obtain ⟨m, hm, hparses⟩ := Encoders.parses_encode hrange hbyte
      obtain ⟨messages, hps, hinputs⟩ := ih (fun u hu ↦ hplain u (List.mem_cons_of_mem _ hu))
        (fun u hu ↦ hscreen u (List.mem_cons_of_mem _ hu))
        (fun u hu ↦ hsize u (List.mem_cons_of_mem _ hu))
      refine ⟨m :: messages, .cons hparses hps, ?_⟩
      rw [List.map_cons, List.map_cons, decodes_controlInput hm, hinputs]
  obtain ⟨messages, hparses, hinputs⟩ := hmessages
  refine ⟨messages, ?_, hinputs⟩
  have hmany := (Wire.Parses.many hparses).eq
  have hlength : messages.length = ts.length := by
    have := congrArg List.length hinputs
    rwa [List.length_map, List.length_map] at this
  rwa [← List.flatMap_def, hlength] at hmany

/-! ### What the phone injects -/

open Phone (Controller Pointer)
open Phone.PointersState (item shown maxPointers)

/-- The controller of a connection without a display, with the page's pointer at most. -/
structure OnePointer (displayId : ℤ) (c : Controller) : Prop where
  inv : c.Inv
  displayId : c.displayId = displayId
  displayData : c.displayData = none
  pointers : c.pointers = [] ∨ ∃ p, c.pointers = [p] ∧ p.id = 0 ∧ p.localId = 0

theorem isFinger_touchMessage {t : Touch} (h : Plain t) :
    Controller.IsFinger (touchMessage t) := by
  refine ⟨?_, ?_⟩
  · simp [Controller.fromMouse, touchMessage, h.pointerId, Phone.pointerIdMouse]
  · cases ht : t.action with
    | down => exact ⟨.down, by simp [touchMessage, ht]; rfl⟩
    | up => exact ⟨.up, by simp [touchMessage, ht]; rfl⟩
    | move => exact ⟨.move, by simp [touchMessage, ht]; rfl⟩

/-- The page's pointer is the only one, and has the first local id. -/
theorem getPointerIndex_one {displayId : ℤ} {c : Controller} (hs : OnePointer displayId c) :
    ∃ p : Pointer, Phone.PointersState.getPointerIndex c.pointers 0 = .ok (some 0, [p]) ∧
      p.id = 0 ∧ p.localId = 0 := by
  obtain hnil | ⟨p, hp, hid, hlocal⟩ := hs.pointers
  · rw [hnil]
    exact ⟨⟨0, 0, none, 0, false⟩, rfl, rfl, rfl⟩
  · rw [hp]
    refine ⟨p, ?_, hid, hlocal⟩
    simp [Phone.PointersState.getPointerIndex, Phone.PointersState.indexOf, hid]

/-- **One touch**: one event, with the page's pointer where the page put it. -/
theorem handle_touch {displayId : ℤ} {c : Controller} (hs : OnePointer displayId c) (env : Env)
    {t : Touch} (ht : Plain t) :
    ∃ c' event, c.handle env (.touch (touchMessage t)) = .ok (c', [(event, displayId)]) ∧
      OnePointer displayId c' ∧ event.action = androidMotionAction t.action ∧
      event.pointers.map item = [(0, t.x, t.y, t.pressure)] := by
  have hfinger := (isFinger_touchMessage ht).1
  obtain ⟨p, hget, hid, hlocal⟩ := getPointerIndex_one hs
  have hpointerId : (touchMessage t).pointerId = 0 := ht.pointerId
  have hentered : Phone.PointersState.Entered c.pointers (touchMessage t).pointerId 0 [p] := by
    obtain ⟨hnone, -, -⟩ | ⟨index, q, hq, hentered, -⟩ :=
      Phone.PointersState.getPointerIndex_entered hs.inv.pointers 0
    · rw [hget] at hnone
      cases hnone
    · rw [hget] at hq
      obtain ⟨hindex, rfl⟩ := Prod.mk.inj (Except.ok.inj hq)
      obtain rfl := Option.some.inj hindex
      exact hpointerId ▸ hentered
  obtain ⟨props, coords, lastTouchDown, hprops, hcoords, hitems, htouch⟩ :=
    Controller.touchPointer_eq hs.inv hentered env ⟨t.x, t.y⟩ displayId
  have hposition : c.getEventPointAndDisplayId (touchMessage t).position =
      some (⟨t.x, t.y⟩, displayId) := by
    rw [Controller.getEventPointAndDisplayId, hs.displayData, hs.displayId]
    rfl
  obtain ⟨p', hlisted, hp', hid', hlocal'⟩ : ∃ p',
      Controller.listed (touchMessage t) ⟨t.x, t.y⟩ [p] = [p'] ∧
        shown p' = some (0, t.x, t.y, t.pressure) ∧ p'.id = 0 ∧ p'.localId = 0 := by
    refine ⟨_, rfl, ?_, by rw [Phone.PointersState.Entered.set_id, hid],
      by rw [Phone.PointersState.Entered.set_localId, hlocal]⟩
    rw [Phone.PointersState.Entered.set, if_pos (hid.trans hpointerId.symm), shown, hlocal]
    rfl
  have hleft : Phone.PointersState.cleanUp [p'] = [] ∨
      ∃ r, Phone.PointersState.cleanUp [p'] = [r] ∧ r.id = 0 ∧ r.localId = 0 := by
    cases hup : p'.up with
    | true => exact .inl (by simp [Phone.PointersState.cleanUp, hup])
    | false => exact .inr ⟨p', by simp [Phone.PointersState.cleanUp, hup], hid', hlocal'⟩
  have hinv : Phone.PointersState.Inv (Phone.PointersState.cleanUp
      (Controller.listed (touchMessage t) ⟨t.x, t.y⟩ [p])) := hentered.inv hs.inv.pointers
  rw [hlisted] at hitems htouch hinv
  rw [Controller.handle, Controller.injectTouch, hposition]
  dsimp only
  rw [hpointerId, hget]
  dsimp only
  rw [htouch, Controller.injected_of_touchscreen (by simp [Controller.touchEvent, hfinger])]
  refine ⟨_, _, rfl, ⟨⟨hinv, hprops, hcoords⟩, hs.displayId, hs.displayData, hleft⟩, rfl, ?_⟩
  have hsome := hitems.trans (congrArg (fun x ↦ [x]) hp')
  rw [← List.map_map] at hsome
  exact List.map_injective_iff.2 (Option.some_injective _) hsome

/-- What a finger event says. -/
def said (e : MotionEvent × ℤ) : ℤ × List (ℕ × ℤ × ℤ × ℚ) × ℤ :=
  (e.1.action, e.1.pointers.map item, e.2)

/-- One event for each touch. -/
theorem run_touches {displayId : ℤ} :
    ∀ {ts : List Touch} {inputs : List (Env × Input)} {c : Controller},
      OnePointer displayId c → (∀ t ∈ ts, Plain t) →
      inputs.map Prod.snd = ts.map (fun t ↦ .touch (touchMessage t)) →
      ∃ c' events, c.run inputs = .ok (c', events) ∧ OnePointer displayId c' ∧
        events.map said =
          ts.map fun t ↦
            (androidMotionAction t.action, [(0, t.x, t.y, t.pressure)], displayId) := by
  intro ts
  induction ts with
  | nil =>
    intro inputs c hs _ hinputs
    obtain rfl := List.map_eq_nil_iff.1 hinputs
    exact ⟨c, [], rfl, hs, rfl⟩
  | cons t ts ih =>
    intro inputs c hs hplain hinputs
    obtain ⟨i, inputs, rfl⟩ : ∃ i inputs', inputs = i :: inputs' := by
      rcases inputs with _ | ⟨i, inputs⟩
      · cases hinputs
      · exact ⟨i, inputs, rfl⟩
    obtain ⟨env, input⟩ := i
    rw [List.map_cons, List.map_cons] at hinputs
    obtain ⟨rfl, hrest⟩ := List.cons.inj hinputs
    obtain ⟨c₁, event, hhandle, hs₁, haction, hpointers⟩ :=
      handle_touch hs env (hplain t List.mem_cons_self)
    obtain ⟨c₂, events, hrun, hs₂, hsaid⟩ :=
      ih hs₁ (fun u hu ↦ hplain u (List.mem_cons_of_mem _ hu)) hrest
    refine ⟨c₂, _, Controller.run_cons hhandle hrun, hs₂, ?_⟩
    rw [List.singleton_append, List.map_cons, List.map_cons, hsaid, said, haction, hpointers]

/-! ### One finger -/

/-- What a mark of the browser's stream says of the contact. -/
def contactOfMark : Mark → Contact
  | .opening => .down
  | .middle => .move
  | .closing => .up

/-- With one finger, legal reports are brackets. -/
theorem report_brackets (ms : List Mark) {phase : Phase} (hphase : phase ≠ .broken) :
    exec (MultiTouch.report maxPointers) (if phase = .opened then [(0 : ℤ)] else [])
        (ms.map fun m ↦ (contactOfMark m, 0)) =
      match ms.foldl advance phase with
      | .closed => some []
      | .opened => some [0]
      | .broken => none := by
  induction ms generalizing phase with
  | nil =>
    cases phase with
    | closed => rfl
    | opened => rfl
    | broken => exact absurd rfl hphase
  | cons m ms ih =>
    rw [List.map_cons, exec_cons, List.foldl_cons]
    cases phase with
    | broken => exact absurd rfl hphase
    | closed =>
      cases m with
      | opening => exact ih (show Phase.opened ≠ .broken by decide)
      | middle =>
        rw [show advance .closed .middle = .broken from rfl, foldl_broken]
        rfl
      | closing =>
        rw [show advance .closed .closing = .broken from rfl, foldl_broken]
        rfl
    | opened =>
      cases m with
      | opening =>
        rw [show advance .opened .opening = .broken from rfl, foldl_broken]
        rfl
      | middle => exact ih (show Phase.opened ≠ .broken by decide)
      | closing => exact ih (show Phase.closed ≠ .broken by decide)

theorem mark_contact (action : MotionAction) :
    contactOfMark action.mark =
      if androidMotionAction action = Phone.actionDown then .down
      else if androidMotionAction action = Phone.actionUp then .up else .move := by
  cases action <;> rfl

/-- The reports that the phone gets are the marks of the touches. -/
theorem reports_touches :
    ∀ {ts : List Touch} {inputs : List (Env × Input)}, (∀ t ∈ ts, Plain t) →
      inputs.map Prod.snd = ts.map (fun t ↦ .touch (touchMessage t)) →
      Controller.reports none inputs =
        (ts.map fun t ↦ t.action.mark).map fun m ↦ (contactOfMark m, 0) := by
  intro ts
  induction ts with
  | nil =>
    intro inputs _ hinputs
    obtain rfl := List.map_eq_nil_iff.1 hinputs
    rfl
  | cons t ts ih =>
    intro inputs hplain hinputs
    obtain ⟨i, inputs, rfl⟩ : ∃ i inputs', inputs = i :: inputs' := by
      rcases inputs with _ | ⟨i, inputs⟩
      · cases hinputs
      · exact ⟨i, inputs, rfl⟩
    obtain ⟨env, input⟩ := i
    rw [List.map_cons, List.map_cons] at hinputs
    obtain ⟨rfl, hrest⟩ := List.cons.inj hinputs
    have hcontact : Controller.contactOf (touchMessage t) = contactOfMark t.action.mark :=
      (mark_contact t.action).symm
    have hpointerId : (touchMessage t).pointerId = 0 := (hplain t List.mem_cons_self).pointerId
    rw [Controller.reports, ih (fun u hu ↦ hplain u (List.mem_cons_of_mem _ hu)) hrest, hcontact,
      hpointerId]
    rfl

/-- **From the mouse to the phone.** Over any sequence of mouse events, activations, teardowns and
changes of the screen, with screens of less than 65536 pixels a side: the phone reads one message
for each touch that the page sends, and injects one event for it, with the action of the touch and
the only pointer where the page put it. The system accepts the stream of these events exactly if
the page never broke the gesture, and then a pointer is left on the glass exactly while the gesture
of the page is open. -/
theorem mouse_on_phone (displayId : ℤ) {es : List Browser.Pointer.PointerEvent}
    {s : Browser.Pointer}
    (h : exec Browser.Pointer.step Browser.Pointer.start es = some s)
    (hsize : ∀ t ∈ s.sent, t.screenWidth < 65536 ∧ t.screenHeight < 65536) :
    ∃ messages, ControlMessageReader.read.many s.sent.length
        (s.sent.flatMap fun t ↦ Encoders.encode (controlInput t)) = .ok (messages, []) ∧
      ∀ inputs : List (Env × Input), inputs.map (fun i ↦ some i.2) = messages.map inputOf →
        ∃ c events, (Controller.create displayId).run inputs = .ok (c, events) ∧
          events.map said = s.sent.map
            (fun t ↦ (androidMotionAction t.action, [(0, t.x, t.y, t.pressure)], displayId)) ∧
          ((exec MultiTouch.accept [] (events.filterMap Controller.toTouch)).isSome ↔
            s.gesture ≠ .broken) ∧
          (s.gesture ≠ .broken → (c.pointers ≠ [] ↔ s.gesture = .opened)) := by
  have hplain := plain_of_exec h
  obtain ⟨messages, hread, hmessages⟩ :=
    read_touches hplain (Browser.Pointer.onScreen_of_exec h) hsize
  refine ⟨messages, hread, fun inputs hinputs ↦ ?_⟩
  have hinputs : inputs.map Prod.snd = s.sent.map fun t ↦ .touch (touchMessage t) := by
    refine List.map_injective_iff.2 (Option.some_injective Input) ?_
    rw [List.map_map, List.map_map]
    exact hinputs.trans hmessages
  obtain ⟨c, events, hrun, -, hsaid⟩ := run_touches
    ⟨Controller.create_inv displayId, rfl, rfl, .inl rfl⟩ hplain hinputs
  have hfinger : ∀ i ∈ inputs, ∀ m, i.2 = .touch m → Controller.IsFinger m := by
    intro i hi m hm
    have hmem : i.2 ∈ s.sent.map fun t ↦ Input.touch (touchMessage t) :=
      hinputs ▸ List.mem_map_of_mem hi
    obtain ⟨t, ht, hit⟩ := List.mem_map.1 hmem
    obtain rfl := Input.touch.inj (hit.trans hm)
    exact isFinger_touchMessage (hplain t ht)
  obtain ⟨c', events', hrun', hfollows⟩ :=
    Controller.run_follows (Controller.create_inv displayId) hfinger
  rw [hrun] at hrun'
  obtain ⟨rfl, rfl⟩ := Prod.mk.inj (Except.ok.inj hrun')
  have hreports : exec (MultiTouch.report maxPointers) []
      (Controller.reports none inputs) =
        match s.gesture with
        | .closed => some []
        | .opened => some [0]
        | .broken => none := by
    rw [reports_touches hplain hinputs]
    exact report_brackets _ (show Phase.closed ≠ .broken by decide)
  refine ⟨c, events, hrun, hsaid, ?_, fun hg ↦ ?_⟩
  · have haccept : exec MultiTouch.accept [] (events.filterMap Controller.toTouch) =
        (exec (MultiTouch.report maxPointers) [] (Controller.reports none inputs)).map
          fun _ ↦ c.pointers.map Pointer.localId := hfollows.accept
    rw [haccept, Option.isSome_map, hreports]
    cases s.gesture <;> simp
  · have hids := hfollows.ids
    cases hgesture : s.gesture with
    | broken => exact absurd hgesture hg
    | closed =>
      rw [hgesture] at hreports
      have hnil := List.map_eq_nil_iff.1 (hids _ hreports).symm
      simp [hnil]
    | opened =>
      rw [hgesture] at hreports
      refine iff_of_true (fun hnil ↦ ?_) rfl
      have := hids _ hreports
      rw [hnil] at this
      cases this

/-- A click in the middle of a square video. -/
def click : List Browser.Pointer.PointerEvent :=
  [.showScreenViewer true, .frame ⟨100, 100⟩ 100 200,
    .mousedown (Browser.Pointer.mouseAt 50 100), .mouseup (Browser.Pointer.mouseAt 50 100)]

theorem mouse_on_phone_click :
    ∃ s messages, exec Browser.Pointer.step Browser.Pointer.start click = some s ∧
      s.sent.length = 2 ∧ ControlMessageReader.read.many s.sent.length
        (s.sent.flatMap fun t ↦ Encoders.encode (controlInput t)) = .ok (messages, []) := by
  have hrun : (exec Browser.Pointer.step Browser.Pointer.start click).map (fun s ↦
      s.sent.length = 2 && s.sent.all fun t ↦ t.screenWidth < 65536 && t.screenHeight < 65536) =
      some true := by
    decide +kernel
  obtain ⟨s, hs, hsent⟩ := Option.map_eq_some_iff.1 hrun
  simp only [Bool.and_eq_true, decide_eq_true_eq, List.all_eq_true] at hsent
  obtain ⟨messages, hread, -⟩ := mouse_on_phone 0 hs hsent.2
  exact ⟨s, messages, hs, hsent.1, hread⟩

end AllRelay.TouchPath
